import Cosign.Lib.Prog
/-!
# More rounds

A loop of the source that a peer can keep going is a recursion on a number of
rounds, and undefined when they run out. `Within p q` is that `q` does what `p`
does wherever `p` comes to an end: it is how a program stands to itself with
more rounds.
-/

namespace Cosign.Lib.Prog
variable {Op : Type} {Ans : Op → Type} {α β σ : Type}

def Within : Prog Op Ans α → Prog Op Ans α → Prop
  | undef, _ => True
  | ret a, q => q = ret a
  | ask o k, q => ∃ k', q = ask o k' ∧ ∀ r, Within (k r) (k' r)

theorem Within.refl (p : Prog Op Ans α) : Within p p := by
  induction p with
  | ret a => rfl
  | undef => trivial
  | ask o k ih => exact ⟨k, rfl, ih⟩

theorem Within.bind {p q : Prog Op Ans α} {f g : α → Prog Op Ans β} (h : Within p q) (hf : ∀ a, Within (f a) (g a)) :
    Within (p >>= f) (q >>= g) := by
  induction p generalizing q with
  | ret a =>
    cases h
    exact hf a
  | undef => trivial
  | ask o k ih =>
    obtain ⟨k', rfl, hk⟩ := h
    exact ⟨fun r => k' r >>= g, rfl, fun r => ih r (hk r)⟩

/-- What comes first is the same. -/
theorem Within.after {f g : α → Prog Op Ans β} (p : Prog Op Ans α) (hf : ∀ a, Within (f a) (g a)) :
    Within (p >>= f) (p >>= g) := (Within.refl p).bind hf

theorem Within.ite {c : Prop} [Decidable c] {p q p' q' : Prog Op Ans α} (hp : Within p p') (hq : Within q q') :
    Within (if c then p else q) (if c then p' else q') := by
  split
  · exact hp
  · exact hq

theorem Within.run {exec : (o : Op) → σ → Ans o × σ} {p q : Prog Op Ans α} (h : Within p q) {s : σ} {x : α × σ}
    (hp : run exec p s = some x) : run exec q s = some x := by
  induction p generalizing q s with
  | ret a =>
    cases h
    exact hp
  | undef => cases hp
  | ask o k ih =>
    obtain ⟨k', rfl, hk⟩ := h
    exact ih _ (hk _) hp

/-! ## Programs without undefined behaviour -/

def Safe : Prog Op Ans α → Prop
  | ret _ => True
  | undef => False
  | ask _ k => ∀ r, Safe (k r)

theorem Safe.bind {p : Prog Op Ans α} {f : α → Prog Op Ans β} (hp : Safe p) (hf : ∀ a, Safe (f a)) :
    Safe (p >>= f) := by
  induction p with
  | ret a => exact hf a
  | undef => exact hp.elim
  | ask o k ih => exact fun r => ih r (hp r)

theorem Safe.ite {c : Prop} [Decidable c] {p q : Prog Op Ans α} (hp : Safe p) (hq : Safe q) :
    Safe (if c then p else q) := by
  split
  · exact hp
  · exact hq

theorem Safe.run {exec : (o : Op) → σ → Ans o × σ} {p : Prog Op Ans α} (hp : Safe p) (s : σ) :
    ∃ x, run exec p s = some x := by
  induction p generalizing s with
  | ret a => exact ⟨_, rfl⟩
  | undef => exact hp.elim
  | ask o k ih => exact ih _ (hp _) _

end Cosign.Lib.Prog
