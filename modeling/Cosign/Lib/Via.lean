import Cosign.Lib.Prog
/-!
# Programs through other operations

`via` runs a program with each operation carried out by a program over other
operations.
-/

namespace Cosign.Lib.Prog

variable {Op Op' Op'' : Type} {Ans : Op → Type} {Ans' : Op' → Type} {Ans'' : Op'' → Type} {α β : Type}

def via (h : (o : Op) → Prog Op' Ans' (Ans o)) : Prog Op Ans α → Prog Op' Ans' α
  | ret a => ret a
  | undef => undef
  | ask o k => h o >>= fun r => via h (k r)

variable (h : (o : Op) → Prog Op' Ans' (Ans o))

@[simp] theorem via_pure (a : α) : via h (pure a) = pure a := rfl
@[simp] theorem via_undef : via h (undef : Prog Op Ans α) = undef := rfl

@[simp] theorem pure_bind' (a : α) (f : α → Prog Op Ans β) : (pure a >>= f) = f a := rfl
@[simp] theorem undef_bind (f : α → Prog Op Ans β) : ((undef : Prog Op Ans α) >>= f) = undef := rfl

@[simp] theorem via_bind (p : Prog Op Ans α) (f : α → Prog Op Ans β) : via h (p >>= f) = via h p >>= fun a => via h (f a) := by
  induction p with
  | ret a => rfl
  | undef => rfl
  | ask o k ih =>
    show (h o >>= fun r => via h (k r >>= f)) = (h o >>= fun r => via h (k r)) >>= fun a => via h (f a)
    rw [bind_assoc]
    exact congrArg (h o >>= ·) (funext ih)

@[simp] theorem via_call (o : Op) : via h (call o) = h o := bind_ret (h o)

@[simp] theorem via_orUndef (x : Option α) : via h (orUndef x) = orUndef x := by
  cases x <;> rfl

/-- One translation after another that undoes it. -/
theorem via_via {g : (o : Op') → Prog Op Ans (Ans' o)} (hg : ∀ o, via g (h o) = call o) (p : Prog Op Ans α) :
    via g (via h p) = p := by
  induction p with
  | ret a => rfl
  | undef => rfl
  | ask o k ih =>
    show via g (h o >>= fun r => via h (k r)) = ask o k
    rw [via_bind, hg]
    exact congrArg (ask o) (funext ih)

end Cosign.Lib.Prog
