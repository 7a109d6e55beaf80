import Mathlib.Data.List.Basic
/-!
# Programs over system calls

A `Prog` is a process as its system calls see it: it asks one operation at a
time and goes on with the answer. `run` answers every operation from one
state, so it is the process alone.

`undef` marks a place where the C source has undefined behaviour. Nothing is
known of a run that reaches it, so such a run has no result.
-/

namespace Cosign.Lib

inductive Prog (Op : Type) (Ans : Op → Type) (α : Type) where
  | ret (a : α)
  | undef
  | ask (o : Op) (k : Ans o → Prog Op Ans α)

namespace Prog
variable {Op : Type} {Ans : Op → Type} {α β σ : Type}

def bind : Prog Op Ans α → (α → Prog Op Ans β) → Prog Op Ans β
  | ret a, f => f a
  | undef, _ => undef
  | ask o k, f => ask o fun r => (k r).bind f

instance : Monad (Prog Op Ans) where
  pure := ret
  bind := bind

/-- One operation, and its answer. -/
def call (o : Op) : Prog Op Ans (Ans o) := ask o ret

/-- The answer when there is one. The source reads past an end otherwise. -/
def orUndef : Option α → Prog Op Ans α
  | some a => ret a
  | none => undef

theorem bind_assoc {γ : Type} (p : Prog Op Ans α) (f : α → Prog Op Ans β) (g : β → Prog Op Ans γ) :
    p >>= f >>= g = p >>= fun a => f a >>= g := by
  induction p with
  | ret a => rfl
  | undef => rfl
  | ask o k ih => exact congrArg (Prog.ask o) (funext fun r => ih r)

theorem bind_ret (p : Prog Op Ans α) : (p >>= fun a => pure a) = p := by
  induction p with
  | ret a => rfl
  | undef => rfl
  | ask o k ih => exact congrArg (Prog.ask o) (funext fun r => ih r)

/-! ## One process alone -/

section Run
variable (exec : (o : Op) → σ → Ans o × σ)

/-- The result and the state the process leaves, unless it reaches undefined
behaviour. -/
def run : Prog Op Ans α → σ → Option (α × σ)
  | ret a, s => some (a, s)
  | undef, _ => none
  | ask o k, s => run (k (exec o s).1) (exec o s).2

@[simp] theorem run_ret (a : α) (s : σ) : run exec (ret a : Prog Op Ans α) s = some (a, s) := rfl
@[simp] theorem run_undef (s : σ) : run exec (undef : Prog Op Ans α) s = none := rfl
@[simp] theorem run_pure (a : α) (s : σ) : run exec (pure a : Prog Op Ans α) s = some (a, s) := rfl
@[simp] theorem run_call (o : Op) (s : σ) : run exec (call o : Prog Op Ans _) s = some (exec o s) := rfl

@[simp] theorem run_bind (p : Prog Op Ans α) (f : α → Prog Op Ans β) (s : σ) :
    run exec (p >>= f) s = (run exec p s).bind fun x => run exec (f x.1) x.2 := by
  induction p generalizing s with
  | ret a => rfl
  | undef => rfl
  | ask o k ih => exact ih _ _

theorem run_orUndef (x : Option α) (s : σ) :
    run exec (orUndef x : Prog Op Ans α) s = x.map fun a => (a, s) := by
  cases x <;> rfl

end Run

/-! ## What a process may ask -/

/-- Every operation the process can ask satisfies `C`. -/
def Asks (C : Op → Prop) : Prog Op Ans α → Prop
  | ret _ => True
  | undef => True
  | ask o k => C o ∧ ∀ r, Asks C (k r)

@[simp] theorem asks_pure (C : Op → Prop) (a : α) : Asks C (pure a : Prog Op Ans α) := trivial
@[simp] theorem asks_undef (C : Op → Prop) : Asks C (undef : Prog Op Ans α) := trivial
@[simp] theorem asks_call (C : Op → Prop) (o : Op) : Asks C (call o : Prog Op Ans _) ↔ C o := by
  simp [call, Asks]

theorem asks_orUndef (C : Op → Prop) (x : Option α) : Asks C (orUndef x : Prog Op Ans α) := by
  cases x <;> trivial

theorem asks_bind {C : Op → Prop} {p : Prog Op Ans α} {f : α → Prog Op Ans β} (hp : Asks C p)
    (hf : ∀ a, Asks C (f a)) : Asks C (p >>= f) := by
  induction p with
  | ret a => exact hf a
  | undef => trivial
  | ask o k ih => exact ⟨hp.1, fun r => ih r (hp.2 r)⟩

theorem asks_ite {C : Op → Prop} {c : Prop} [Decidable c] {p q : Prog Op Ans α} (hp : Asks C p)
    (hq : Asks C q) : Asks C (if c then p else q) := by
  split
  · exact hp
  · exact hq

/-- Every result the process can end with satisfies `Φ`, whatever is answered. -/
def Returns (Φ : α → Prop) : Prog Op Ans α → Prop
  | ret a => Φ a
  | undef => True
  | ask _ k => ∀ r, Returns Φ (k r)

theorem returns_bind {Φ : β → Prop} (p : Prog Op Ans α) {f : α → Prog Op Ans β} (hf : ∀ a, Returns Φ (f a)) :
    Returns Φ (p >>= f) := by
  induction p with
  | ret a => exact hf a
  | undef => trivial
  | ask o k ih => exact fun r => ih r

theorem returns_seq {Ψ : α → Prop} {Φ : β → Prop} {p : Prog Op Ans α} (hp : Returns Ψ p) {f : α → Prog Op Ans β}
    (hf : ∀ a, Ψ a → Returns Φ (f a)) : Returns Φ (p >>= f) := by
  induction p with
  | ret a => exact hf a hp
  | undef => trivial
  | ask o k ih => exact fun r => ih r (hp r)

theorem Returns.run {exec : (o : Op) → σ → Ans o × σ} {Φ : α → Prop} {p : Prog Op Ans α} (hp : Returns Φ p) {s t : σ}
    {a : α} (h : run exec p s = some (a, t)) : Φ a := by
  induction p generalizing s with
  | ret b => cases h; exact hp
  | undef => cases h
  | ask o k ih => exact ih _ (hp _) h

theorem Returns.mono {Φ Ψ : α → Prop} {p : Prog Op Ans α} (hp : Returns Φ p) (h : ∀ a, Φ a → Ψ a) : Returns Ψ p := by
  induction p with
  | ret a => exact h a hp
  | undef => trivial
  | ask o k ih => exact fun r => ih r (hp r)

theorem returns_ite {Φ : α → Prop} {c : Prop} [Decidable c] {p q : Prog Op Ans α} (hp : Returns Φ p)
    (hq : Returns Φ q) : Returns Φ (if c then p else q) := by
  split
  · exact hp
  · exact hq

/-- What every operation the process may ask preserves, the process preserves. -/
theorem Asks.inv {exec : (o : Op) → σ → Ans o × σ} {C : Op → Prop} (I : σ → Prop)
    (hI : ∀ o s, C o → I s → I (exec o s).2) {p : Prog Op Ans α} (hp : Asks C p) {s : σ} (hs : I s)
    {a : α} {t : σ} (h : run exec p s = some (a, t)) : I t := by
  induction p generalizing s with
  | ret b => cases h; exact hs
  | undef => cases h
  | ask o k ih => exact ih _ (hp.2 _) (hI o s hp.1 hs) h

end Prog
end Cosign.Lib
