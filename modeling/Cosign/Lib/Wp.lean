import Cosign.Lib.Prog
/-!
# Programs over a world that chooses

Where the answers come from a peer or a network, an operation has many
outcomes: `step` relates the operation and the state before to the answer and
the state after. `Goes` is a run so far, with every operation in it. `wp` is
the assertion from which a program keeps a guarantee `G` on each of its events
and ends in `Q`, as long as each event meets the assumption `C`; `wp_sound`
turns it into a fact about runs.
-/

namespace Cosign.Lib.Prog

/-- One operation as it took effect. -/
structure Event (Op : Type) (Ans : Op → Type) (σ : Type) where
  pre : σ
  op : Op
  ans : Ans op
  post : σ

variable {Op : Type} {Ans : Op → Type} {α β σ : Type}
  (step : (o : Op) → σ → Ans o → σ → Prop)

/-- The events of a run, which has a result if the program came to its end. -/
inductive Goes : Prog Op Ans α → σ → List (Event Op Ans σ) → Option α → σ → Prop
  | stop (p : Prog Op Ans α) (s : σ) : Goes p s [] none s
  | ret (a : α) (s : σ) : Goes (ret a) s [] (some a) s
  | ask {o k s r s' tr a t} : step o s r s' → Goes (k r) s' tr a t →
      Goes (ask o k) s (⟨s, o, r, s'⟩ :: tr) a t

section
variable (C G : Event Op Ans σ → Prop)

def wp : Prog Op Ans α → (α → σ → Prop) → σ → Prop
  | ret a, Q => Q a
  | undef, _ => fun _ => True
  | ask o k, Q => fun s =>
    ∀ r s', step o s r s' → C ⟨s, o, r, s'⟩ → G ⟨s, o, r, s'⟩ ∧ wp (k r) Q s'

variable {step C G}

@[simp] theorem wp_pure (a : α) (Q : α → σ → Prop) (s : σ) :
    wp step C G (pure a : Prog Op Ans α) Q s ↔ Q a s := Iff.rfl

@[simp] theorem wp_undef (Q : α → σ → Prop) (s : σ) : wp step C G (undef : Prog Op Ans α) Q s := trivial

@[simp] theorem wp_call (o : Op) (Q : Ans o → σ → Prop) (s : σ) :
    wp step C G (call o : Prog Op Ans _) Q s ↔
      ∀ r s', step o s r s' → C ⟨s, o, r, s'⟩ → G ⟨s, o, r, s'⟩ ∧ Q r s' := Iff.rfl

@[simp] theorem wp_bind (p : Prog Op Ans α) (f : α → Prog Op Ans β) (Q : β → σ → Prop) (s : σ) :
    wp step C G (p >>= f) Q s ↔ wp step C G p (fun a => wp step C G (f a) Q) s := by
  induction p generalizing s with
  | ret a => exact Iff.rfl
  | undef => exact Iff.rfl
  | ask o k ih =>
    change (∀ r s', _ → _ → _ ∧ wp step C G (k r >>= f) Q s') ↔ _
    simp only [ih]
    exact Iff.rfl

theorem wp_mono {p : Prog Op Ans α} {Q R : α → σ → Prop} (h : ∀ a s, Q a s → R a s) {s : σ}
    (hp : wp step C G p Q s) : wp step C G p R s := by
  induction p generalizing s with
  | ret a => exact h a s hp
  | undef => trivial
  | ask o k ih =>
    intro r s' hs hC
    obtain ⟨hG, hk⟩ := hp r s' hs hC
    exact ⟨hG, ih r hk⟩

/-- An invariant of every operation the program may ask holds at its end. -/
theorem wp_of_asks {K : Op → Prop} {Φ : α → Prop} {I : σ → Prop} {p : Prog Op Ans α} (hp : Asks K p)
    (hr : Returns Φ p) (hG : ∀ e, G e) (hI : ∀ o s r s', K o → I s → step o s r s' → I s') {s : σ} (hs : I s) :
    wp step C G p (fun a s => Φ a ∧ I s) s := by
  induction p generalizing s with
  | ret a => exact ⟨hr, hs⟩
  | undef => trivial
  | ask o k ih =>
    intro r s' hstep _
    exact ⟨hG _, ih r (hp.2 r) (hr r) (hI o s r s' hp.1 hs hstep)⟩

/-- What holds of a program from every state it may start in, in the shape the
rules above use: the state after a call is `Q`'s. -/
theorem wp_sound {p : Prog Op Ans α} {Q : α → σ → Prop} {s t : σ} {tr : List (Event Op Ans σ)}
    {a : Option α} (hp : wp step C G p Q s) (h : Goes step p s tr a t) (hC : ∀ e ∈ tr, C e) :
    (∀ e ∈ tr, G e) ∧ ∀ b, a = some b → Q b t := by
  induction h with
  | stop p s => exact ⟨by simp, by simp⟩
  | ret a s => exact ⟨by simp, by rintro _ ⟨⟩; exact hp⟩
  | ask hs _ ih =>
    obtain ⟨hG, hk⟩ := hp _ _ hs (hC _ List.mem_cons_self)
    obtain ⟨hGs, hQ⟩ := ih hk fun e he => hC e (List.mem_cons_of_mem _ he)
    refine ⟨fun e he => ?_, hQ⟩
    rcases List.mem_cons.1 he with rfl | he
    · exact hG
    · exact hGs e he

end

/-! ## Computed answers -/

/-- A run whose answers are computed is one of the runs. -/
theorem goes_of_run {exec : (o : Op) → σ → Ans o × σ} (hexec : ∀ o s, step o s (exec o s).1 (exec o s).2)
    {p : Prog Op Ans α} {s t : σ} {a : α} (h : run exec p s = some (a, t)) : ∃ tr, Goes step p s tr (some a) t := by
  induction p generalizing s with
  | ret b => cases h; exact ⟨[], .ret _ _⟩
  | undef => cases h
  | ask o k ih =>
    obtain ⟨tr, hk⟩ := ih _ h
    exact ⟨_, .ask (hexec o s) hk⟩

end Cosign.Lib.Prog
