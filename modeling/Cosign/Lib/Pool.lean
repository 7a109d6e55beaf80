import Cosign.Lib.Fuel
import Mathlib.Data.List.Perm.Basic
/-!
# Asking a pool

Two passes over a list of nodes: the first over those that are open, the second
over those that are closed by then, which are opened again. A node's turn ends
with a verdict, or with none when it cannot be opened, and a final verdict ends
the whole. `pass` and `choose` are the loops, with a log of the turns taken;
`turns` says which are due, and `choose_returns` that they are the ones taken.
-/

namespace Cosign.Lib.Pool

/-- A node's turn: in the first pass or again in the second, by its place. -/
structure Visit where
  again : Bool
  idx : Nat
  deriving DecidableEq

abbrev Log (V : Type) := List (Visit × Option V)

/-! ## The turns that are due -/

section Turns
variable {V : Type} (final broken : V → Bool) (a : Visit → Option V)

/-- Over the open ones, or the closed ones, from place `n` on. -/
def due (again : Bool) (n : Nat) (isOpen : List Bool) : List Visit :=
  ((isOpen.zipIdx n).filter fun x => x.1 != again).map fun x => ⟨again, x.2⟩

/-- Which nodes are open after the first pass. -/
def stillOpen (n : Nat) (isOpen : List Bool) : List Bool :=
  (isOpen.zipIdx n).map fun x => x.1 && !(a ⟨false, x.2⟩).any broken

def turns (isOpen : List Bool) : List Visit := due false 0 isOpen ++ due true 0 (stillOpen broken a 0 isOpen)

def decisive (t : Visit) : Bool := (a t).any final

/-- The list up to the first that has `p`. -/
def upTo {α : Type} (p : α → Bool) : List α → List α
  | [] => []
  | x :: xs => if p x then [x] else x :: upTo p xs

/-- The turns with their verdicts. -/
def answered (ts : List Visit) : Log V := ts.map fun t => (t, a t)

/-- The log has the verdicts of `a`. -/
def Follows (log : Log V) : Prop := ∀ e ∈ log, a e.1 = e.2

/-- The node at a place before the others. -/
def toFront {α : Type} (i : Nat) (xs : List α) : List α := xs[i]?.toList ++ xs.eraseIdx i

theorem due_skip {again b : Bool} (h : b = again) (n : Nat) (bs : List Bool) :
    due again n (b :: bs) = due again (n + 1) bs := by
  simp [due, h]

theorem due_take {again b : Bool} (h : b ≠ again) (n : Nat) (bs : List Bool) :
    due again n (b :: bs) = ⟨again, n⟩ :: due again (n + 1) bs := by
  simp [due, h]

theorem stillOpen_cons (n : Nat) (b : Bool) (bs : List Bool) :
    stillOpen broken a n (b :: bs) = (b && !(a ⟨false, n⟩).any broken) :: stillOpen broken a (n + 1) bs := by
  simp [stillOpen]

theorem upTo_append {α : Type} {p : α → Bool} {xs : List α} (h : xs.find? p = none) (ys : List α) :
    upTo p (xs ++ ys) = xs ++ upTo p ys := by
  induction xs with
  | nil => rfl
  | cons x xs ih =>
    rw [List.find?_cons] at h
    split at h
    · cases h
    · rename_i hx
      rw [List.cons_append, upTo, hx, if_neg (by simp), ih h, List.cons_append]

theorem upTo_of_none {α : Type} {p : α → Bool} {xs : List α} (h : xs.find? p = none) : upTo p xs = xs := by
  have := upTo_append h []
  simpa [upTo] using this

theorem upTo_of_find {α : Type} {p : α → Bool} {xs : List α} {x : α} (h : xs.find? p = some x) (ys : List α) :
    upTo p (xs ++ ys) = upTo p xs := by
  induction xs with
  | nil => cases h
  | cons y xs ih =>
    rw [List.find?_cons] at h
    rw [List.cons_append, upTo, upTo]
    split at h
    · rename_i hy
      rw [hy, if_pos rfl, if_pos rfl]
    · rename_i hy
      rw [hy, if_neg (by simp), if_neg (by simp), ih h]

theorem answered_cons (t : Visit) (ts : List Visit) : answered a (t :: ts) = (t, a t) :: answered a ts := rfl

theorem answered_append (ts us : List Visit) : answered a (ts ++ us) = answered a ts ++ answered a us := List.map_append

theorem toFront_perm {α : Type} {i : Nat} {xs : List α} (h : i < xs.length) : (toFront i xs).Perm xs := by
  rw [toFront, List.getElem?_eq_getElem h]
  exact List.getElem_cons_eraseIdx_perm h

theorem toFront_append {α : Type} (xs : List α) (y : α) (ys : List α) :
    toFront xs.length (xs ++ y :: ys) = y :: (xs ++ ys) := by
  rw [toFront, List.getElem?_append_right (Nat.le_refl _), List.eraseIdx_append_of_length_le (Nat.le_refl _)]
  simp

end Turns

/-! ## The loops -/

section Loops
variable {Op : Type} {Ans : Op → Type} {N S V β γ : Type} (isOpen : N → Bool) (final : V → Bool)
  (consult : Bool → N → S → Prog Op Ans (Option V × N × S))

def pass (again : Bool) (fin : Log V → V → S → N → List N → List N → Prog Op Ans β) (k : Log V → S → List N → Prog Op Ans β) :
    List N → (before : List N) → Log V → S → Prog Op Ans β
  | [], before, log, s => k log s before
  | n :: rest, before, log, s =>
    if isOpen n = again then pass again fin k rest (before ++ [n]) log s
    else do
      let (v, n', s) ← consult again n s
      let log := log ++ [(⟨again, before.length⟩, v)]
      match v.filter final with
      | some v => fin log v s n' before rest
      | none => pass again fin k rest (before ++ [n']) log s

def choose (fin : Log V → V → S → N → List N → List N → Prog Op Ans β) (k : Log V → S → List N → Prog Op Ans β) (pool : List N)
    (s : S) : Prog Op Ans β :=
  pass isOpen final consult false fin (fun log s pool => pass isOpen final consult true fin k pool [] log s) pool [] [] s

/-- The choice, with the log of its turns. -/
def chooseLogged (fin : Log V → V → S → N → List N → List N → Prog Op Ans β) (k : Log V → S → List N → Prog Op Ans β)
    (pool : List N) (s : S) : Prog Op Ans (β × Log V) :=
  choose isOpen final consult (fun log v s n front back => fin log v s n front back >>= fun b => pure (b, log))
    (fun log s pool => k log s pool >>= fun b => pure (b, log)) pool s

/-- What a pass makes of a turn. -/
def afterTurn (again : Bool) (fin : Log V → V → S → N → List N → List N → Prog Op Ans β)
    (k : Log V → S → List N → Prog Op Ans β) (rest before : List N) (log : Log V) (x : Option V × N × S) :
    Prog Op Ans β :=
  match x.1.filter final with
  | some v => fin (log ++ [(⟨again, before.length⟩, x.1)]) v x.2.2 x.2.1 before rest
  | none => pass isOpen final consult again fin k rest (before ++ [x.2.1]) (log ++ [(⟨again, before.length⟩, x.1)]) x.2.2

theorem pass_take {again : Bool} {n : N} (h : isOpen n ≠ again)
    (fin : Log V → V → S → N → List N → List N → Prog Op Ans β) (k : Log V → S → List N → Prog Op Ans β)
    (rest before : List N) (log : Log V) (s : S) : pass isOpen final consult again fin k (n :: rest) before log s =
      consult again n s >>= afterTurn isOpen final consult again fin k rest before log := by
  rw [pass, if_neg h]
  rfl

theorem pass_bind (again : Bool) (fin : Log V → V → S → N → List N → List N → Prog Op Ans β)
    (k : Log V → S → List N → Prog Op Ans β) (g : β → Prog Op Ans γ) (rest before : List N) (log : Log V) (s : S) :
    pass isOpen final consult again fin k rest before log s >>= g =
      pass isOpen final consult again (fun log v s n front back => fin log v s n front back >>= g)
        (fun log s pool => k log s pool >>= g) rest before log s := by
  induction rest generalizing before log s with
  | nil => rfl
  | cons n rest ih =>
    unfold pass
    split
    · exact ih _ _ _
    · rw [Prog.bind_assoc]
      congr 1
      funext x
      obtain ⟨v, n', s'⟩ := x
      dsimp only
      cases v.filter final with
      | none => exact ih _ _ _
      | some v => rfl

/-- Without its log, the choice is the choice. -/
theorem chooseLogged_fst (fin : Log V → V → S → N → List N → List N → Prog Op Ans β)
    (k : Log V → S → List N → Prog Op Ans β) (pool : List N) (s : S) :
    (chooseLogged isOpen final consult fin k pool s >>= fun x => pure x.1) = choose isOpen final consult fin k pool s := by
  have hdrop : ∀ (p : Prog Op Ans β) (log : Log V), (p >>= fun b => pure (b, log)) >>= (fun x => pure x.1) = p := by
    intro p log
    rw [Prog.bind_assoc]
    exact Prog.bind_ret p
  unfold chooseLogged choose
  simp only [pass_bind, hdrop]

/-- With more rounds after the choice, it does what it did. -/
theorem choose_within {fin fin' : Log V → V → S → N → List N → List N → Prog Op Ans β}
    (k : Log V → S → List N → Prog Op Ans β)
    (h : ∀ log v s n front back, (fin log v s n front back).Within (fin' log v s n front back)) (pool : List N) (s : S) :
    (choose isOpen final consult fin k pool s).Within (choose isOpen final consult fin' k pool s) := by
  have hpass : ∀ (again : Bool) {k k' : Log V → S → List N → Prog Op Ans β},
      (∀ log s pool, (k log s pool).Within (k' log s pool)) → ∀ rest before log s,
      (pass isOpen final consult again fin k rest before log s).Within
        (pass isOpen final consult again fin' k' rest before log s) := by
    intro again k k' hk rest
    induction rest with
    | nil => exact fun before log s => hk log s before
    | cons n rest ih =>
      intro before log s
      unfold pass
      refine .ite (ih _ _ _) (Prog.Within.after _ ?_)
      rintro ⟨v, n', s'⟩
      dsimp only
      cases v.filter final with
      | some v => exact h _ _ _ _ _ _
      | none => exact ih _ _ _
  exact hpass false (fun log s pool => hpass true (fun _ _ _ => .refl _) _ _ _ _) _ _ _ _

theorem choose_safe {fin : Log V → V → S → N → List N → List N → Prog Op Ans β}
    {k : Log V → S → List N → Prog Op Ans β} (hconsult : ∀ again n s, (consult again n s).Safe)
    (hfin : ∀ log v s n front back, (fin log v s n front back).Safe) (hk : ∀ log s pool, (k log s pool).Safe)
    (pool : List N) (s : S) : (choose isOpen final consult fin k pool s).Safe := by
  have hpass : ∀ (again : Bool) {k : Log V → S → List N → Prog Op Ans β}, (∀ log s pool, (k log s pool).Safe) →
      ∀ rest before log s, (pass isOpen final consult again fin k rest before log s).Safe := by
    intro again k hk rest
    induction rest with
    | nil => exact fun before log s => hk log s before
    | cons n rest ih =>
      intro before log s
      unfold pass
      refine .ite (ih _ _ _) ((hconsult again n s).bind ?_)
      rintro ⟨v, n', s'⟩
      dsimp only
      cases v.filter final with
      | some v => exact hfin _ _ _ _ _ _
      | none => exact ih _ _ _
  exact hpass false (fun log s pool => hpass true hk _ _ _ _) _ _ _ _

/-! ## The turns that are taken -/

variable {I : Type} {isOpen final consult} (broken : V → Bool) (key : N → I)

/-- A consultation leaves the node what it is, and in the first pass it leaves
the connection open unless the verdict is that it is broken. -/
def Consults (isOpen : N → Bool) (consult : Bool → N → S → Prog Op Ans (Option V × N × S)) : Prop :=
  ∀ again n s, isOpen n ≠ again → Prog.Returns (fun x : Option V × N × S => key x.2.1 = key n ∧
    (again = false → isOpen x.2.1 = !x.1.any broken)) (consult again n s)

theorem follows_append {a : Visit → Option V} {log log' : Log V} (h : Follows a (log ++ log')) : Follows a log :=
  fun e he => h e (List.mem_append_left _ he)

theorem pass_returns {broken : V → Bool} {key : N → I} (hc : Consults broken key isOpen consult)
    (a : Visit → Option V) {Φ : β → Prop} {again : Bool} {fin : Log V → V → S → N → List N → List N → Prog Op Ans β}
    {k : Log V → S → List N → Prog Op Ans β} {rest before : List N} {log : Log V} {s : S}
    (hfin : ∀ log' v s n front back, (Follows a log' → ∃ t, a t = some v ∧
        (due again before.length (rest.map isOpen)).find? (decisive final a) = some t ∧
        log' = log ++ answered a (upTo (decisive final a) (due again before.length (rest.map isOpen))) ∧
        front.length = t.idx ∧ (front ++ n :: back).map key = (before ++ rest).map key) →
      Prog.Returns Φ (fin log' v s n front back))
    (hk : ∀ log' s pool, (Follows a log' →
        (due again before.length (rest.map isOpen)).find? (decisive final a) = none ∧
        log' = log ++ answered a (due again before.length (rest.map isOpen)) ∧
        pool.map key = (before ++ rest).map key ∧
        (again = false → pool.map isOpen = before.map isOpen ++ stillOpen broken a before.length (rest.map isOpen))) →
      Prog.Returns Φ (k log' s pool)) :
    Prog.Returns Φ (pass isOpen final consult again fin k rest before log s) := by
  induction rest generalizing before log s with
  | nil =>
    unfold pass
    exact hk log s before fun _ => ⟨rfl, by simp [due, answered], by simp, by simp [stillOpen]⟩
  | cons n rest ih =>
    unfold pass
    rw [List.map_cons] at hfin hk
    split
    · rename_i hskip
      rw [due_skip hskip] at hfin hk
      apply ih
      · intro log' v s n' front back h
        apply hfin
        simpa using h
      · intro log' s pool h
        apply hk
        intro hlog
        obtain ⟨hnone, hl, hkey, hopen⟩ := h hlog
        refine ⟨by simpa using hnone, by simpa using hl, by simpa using hkey, fun hfirst => ?_⟩
        have hclosed : isOpen n = false := hskip.trans hfirst
        rw [stillOpen_cons, hclosed, Bool.false_and, hopen hfirst]
        simp [hclosed]
    · rename_i htake
      rw [due_take htake] at hfin hk
      apply Prog.returns_seq (hc again n s htake)
      rintro ⟨v, n', s'⟩ ⟨hkey', hopen'⟩
      dsimp only at hkey' hopen' ⊢
      cases hv : v.filter final with
      | some w =>
        obtain ⟨rfl, hw⟩ := Option.filter_eq_some_iff.1 hv
        apply hfin
        intro hlog
        have ha : a ⟨again, before.length⟩ = some w := hlog _ (List.mem_append_right _ (List.mem_singleton.2 rfl))
        have hdec : decisive final a ⟨again, before.length⟩ = true := by simp [decisive, ha, hw]
        refine ⟨⟨again, before.length⟩, ha, by rw [List.find?_cons, hdec], ?_, ?_⟩
        · rw [upTo, hdec, if_pos rfl, answered, List.map_singleton, ha]
        · exact ⟨rfl, by simp [hkey']⟩
      | none =>
        have hdec : ∀ {log' : Log V}, Follows a (log ++ [(⟨again, before.length⟩, v)] ++ log') →
            a ⟨again, before.length⟩ = v ∧ decisive final a ⟨again, before.length⟩ = false := by
          intro log' hlog
          have ha : a ⟨again, before.length⟩ = v := by
            apply hlog (⟨again, before.length⟩, v)
            simp
          refine ⟨ha, ?_⟩
          rw [decisive, ha]
          cases v with
          | none => rfl
          | some w => simpa [Option.filter] using hv
        apply ih
        · intro log' w s'' m front back h
          apply hfin
          intro hlog
          obtain ⟨t, ht, hfind, hl, hfront⟩ := h hlog
          obtain ⟨ha, hd⟩ := hdec (hl ▸ hlog)
          rw [List.length_append, List.length_singleton] at hfind hl
          refine ⟨t, ht, by rw [List.find?_cons, hd]; exact hfind, ?_, ?_⟩
          · rw [hl, upTo, hd, if_neg (by simp), answered_cons, ha, List.append_assoc]
            rfl
          · refine ⟨hfront.1, ?_⟩
            rw [hfront.2]
            simp [hkey']
        · intro log' s'' pool h
          apply hk
          intro hlog
          obtain ⟨hnone, hl, hpool, hopen⟩ := h hlog
          obtain ⟨ha, hd⟩ := hdec (hl ▸ hlog)
          rw [List.length_append, List.length_singleton] at hnone hl hopen
          refine ⟨by rw [List.find?_cons, hd]; exact hnone, ?_, ?_, fun hfirst => ?_⟩
          · rw [hl, answered_cons, ha, List.append_assoc]
            rfl
          · rw [hpool]
            simp [hkey']
          · have hn : isOpen n = true := by
              rw [hfirst] at htake
              simpa using htake
            rw [hopen hfirst, stillOpen_cons, hn, Bool.true_and, ← hfirst, ha, List.map_append, List.map_singleton,
              hopen' hfirst]
            simp

/-- The turn is over when `again` is at place `m`. -/
def Over (again : Bool) (m : Nat) (t : Visit) : Prop := (t.again = false ∧ again = true) ∨ (t.again = again ∧ t.idx < m)

/-- No turn is taken twice. -/
def Distinct (log : Log V) : Prop := (log.map fun e => e.1).Nodup

theorem Distinct.snoc {log : Log V} {t : Visit} (v : Option V) (h : Distinct log) (ht : ∀ e ∈ log, e.1 ≠ t) :
    Distinct (log ++ [(t, v)]) := by
  rw [Distinct, List.map_append, List.nodup_append]
  refine ⟨h, by simp, ?_⟩
  intro x hx y hy
  obtain ⟨e, he, rfl⟩ := List.mem_map.1 hx
  obtain rfl : y = t := by simpa using hy
  exact ht e he

theorem Distinct.follows {log : Log V} (h : Distinct log) : ∃ a, Follows a log := by
  induction log with
  | nil => exact ⟨fun _ => none, by simp [Follows]⟩
  | cons e log ih =>
    rw [Distinct, List.map_cons, List.nodup_cons] at h
    obtain ⟨a, ha⟩ := ih h.2
    refine ⟨fun t => if t = e.1 then e.2 else a t, ?_⟩
    intro e' he'
    rcases List.mem_cons.1 he' with rfl | hmem
    · simp
    · have hne : e'.1 ≠ e.1 := fun heq => h.1 (List.mem_map.2 ⟨e', hmem, heq⟩)
      simpa [hne] using ha e' hmem

theorem pass_distinct {Φ : β → Prop} {again : Bool} {fin : Log V → V → S → N → List N → List N → Prog Op Ans β}
    {k : Log V → S → List N → Prog Op Ans β} {rest before : List N} {log : Log V} {s : S} (hlog : Distinct log)
    (hover : ∀ e ∈ log, Over again before.length e.1)
    (hfin : ∀ log v s n front back, Distinct log → Prog.Returns Φ (fin log v s n front back))
    (hk : ∀ log s left, Distinct log → (∀ e ∈ log, Over again left.length e.1) → Prog.Returns Φ (k log s left)) :
    Prog.Returns Φ (pass isOpen final consult again fin k rest before log s) := by
  induction rest generalizing before log s with
  | nil => exact hk log s before hlog hover
  | cons n rest ih =>
    have hnext : ∀ {log : Log V} (n : N), (∀ e ∈ log, Over again before.length e.1) →
        ∀ e ∈ log, Over again (before ++ [n]).length e.1 := by
      intro log n h e he
      rw [List.length_append]
      exact (h e he).imp id fun hlt => ⟨hlt.1, Nat.lt_succ_of_lt hlt.2⟩
    unfold pass
    split
    · exact ih hlog (hnext n hover)
    · apply Prog.returns_bind
      rintro ⟨v, n', s'⟩
      have hd : Distinct (log ++ [(⟨again, before.length⟩, v)]) := by
        apply hlog.snoc v
        rintro e he heq
        rcases hover e he with ⟨hf, ht⟩ | ⟨-, hlt⟩
        · rw [heq] at hf
          cases hf.symm.trans ht
        · rw [heq] at hlt
          exact Nat.lt_irrefl _ hlt
      dsimp only
      cases v.filter final with
      | some w => exact hfin _ _ _ _ _ _ hd
      | none =>
        apply ih hd
        intro e he
        rcases List.mem_append.1 he with he | he
        · exact hnext n' hover e he
        · rw [List.mem_singleton.1 he, List.length_append]
          exact .inr ⟨rfl, Nat.lt_succ_self _⟩

/-- So there are verdicts that the log has. -/
theorem choose_follows {fin : Log V → V → S → N → List N → List N → Prog Op Ans β}
    {k : Log V → S → List N → Prog Op Ans β} (pool : List N) (s : S) :
    Prog.Returns (fun x => ∃ a, Follows a x.2) (chooseLogged isOpen final consult fin k pool s) := by
  have hend : ∀ {p : Prog Op Ans β} {log : Log V}, Distinct log →
      Prog.Returns (fun x : β × Log V => ∃ a, Follows a x.2) (p >>= fun b => pure (b, log)) :=
    fun hlog => Prog.returns_bind _ fun _ => hlog.follows
  unfold chooseLogged choose
  apply pass_distinct
  · simp [Distinct]
  · simp
  · exact fun _ _ _ _ _ _ hlog => hend hlog
  · intro log s left hlog hover
    apply pass_distinct hlog
    · intro e he
      rcases hover e he with ⟨hf, -⟩ | ⟨hf, -⟩
      · exact .inl ⟨hf, rfl⟩
      · exact .inl ⟨hf, rfl⟩
    · exact fun _ _ _ _ _ _ hlog => hend hlog
    · exact fun _ _ _ hlog _ => hend hlog

/-- The turns taken are those that are due, up to the first final verdict, whose
node comes out first. -/
theorem choose_returns {broken : V → Bool} {key : N → I} (hc : Consults broken key isOpen consult)
    (a : Visit → Option V) {Φ : β → Prop} {fin : Log V → V → S → N → List N → List N → Prog Op Ans β}
    {k : Log V → S → List N → Prog Op Ans β} {pool : List N} {s : S}
    (hfin : ∀ log v s n front back, (Follows a log → ∃ t, a t = some v ∧
        (turns broken a (pool.map isOpen)).find? (decisive final a) = some t ∧
        log = answered a (upTo (decisive final a) (turns broken a (pool.map isOpen))) ∧
        front.length = t.idx ∧ (front ++ n :: back).map key = pool.map key) →
      Prog.Returns Φ (fin log v s n front back))
    (hk : ∀ log s left, (Follows a log →
        (turns broken a (pool.map isOpen)).find? (decisive final a) = none ∧
        log = answered a (upTo (decisive final a) (turns broken a (pool.map isOpen))) ∧
        left.map key = pool.map key) →
      Prog.Returns Φ (k log s left)) :
    Prog.Returns Φ (choose isOpen final consult fin k pool s) := by
  unfold choose
  apply pass_returns hc a
  · intro log v s n front back h
    apply hfin
    intro hlog
    obtain ⟨t, ht, hfind, hl, hfront⟩ := h hlog
    simp only [List.nil_append, List.length_nil] at hfind hl hfront
    refine ⟨t, ht, by rw [turns, List.find?_append, hfind, Option.some_or], ?_, hfront⟩
    rw [hl, turns, upTo_of_find hfind]
  · intro log₁ s₁ pool₁ h₁
    have hfirst : ∀ {log : Log V}, Follows a (log₁ ++ log) →
        (due false 0 (pool.map isOpen)).find? (decisive final a) = none ∧
        log₁ = answered a (due false 0 (pool.map isOpen)) ∧ pool₁.map key = pool.map key ∧
        pool₁.map isOpen = stillOpen broken a 0 (pool.map isOpen) := by
      intro log hlog
      obtain ⟨hnone, hl, hkey, hopen⟩ := h₁ (follows_append hlog)
      simp only [List.nil_append, List.length_nil, List.map_nil] at hnone hl hkey hopen
      exact ⟨hnone, hl, hkey, hopen trivial⟩
    apply pass_returns hc a
    · intro log v s n front back h
      apply hfin
      intro hlog
      obtain ⟨t, ht, hfind, hl, hfront⟩ := h hlog
      obtain ⟨hnone, hl₁, hkey, hopen⟩ := hfirst (hl ▸ hlog)
      simp only [List.nil_append, List.length_nil] at hfind hl hfront
      rw [hopen] at hfind hl
      refine ⟨t, ht, by rw [turns, List.find?_append, hnone, Option.none_or, hfind], ?_, hfront.1, by rw [hfront.2, hkey]⟩
      rw [hl, hl₁, turns, upTo_append hnone, answered_append]
    · intro log s left h
      apply hk
      intro hlog
      obtain ⟨hlast, hl, hleft, -⟩ := h hlog
      obtain ⟨hnone, hl₁, hkey, hopen⟩ := hfirst (hl ▸ hlog)
      simp only [List.nil_append, List.length_nil] at hlast hl hleft
      rw [hopen] at hlast hl
      refine ⟨by rw [turns, List.find?_append, hnone, Option.none_or, hlast], ?_, by rw [hleft, hkey]⟩
      rw [hl, hl₁, turns, upTo_append hnone, upTo_of_none hlast, answered_append]

end Loops

end Cosign.Lib.Pool
