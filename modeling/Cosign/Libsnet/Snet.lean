import Cosign.Common.Text
/-!
# The line reader of libsnet

A connection's read buffer, from `sn_rcur` to `sn_rend`, and the scan of
`snet_getline` over it. Each character carries a mark of type `τ` that says how
it came into the buffer; the reader never looks at it.

A carriage return or a NUL ends a line and leaves the reader in `SNET_FUZZY`,
where one newline that comes next is skipped.
-/

namespace Cosign

inductive RState where
  /-- `SNET_BOL` -/
  | bol
  /-- `SNET_FUZZY` -/
  | fuzzy
  /-- `SNET_IN` -/
  | within
  deriving DecidableEq

/-- A character that ends a line, besides the newline. -/
def isEol (c : Char) : Bool := c = '\r' || c = '\x00'

structure Snet (τ : Type) where
  rbuf : List (Char × τ)
  rstate : RState
  /-- The line returned last, with the character that ended it. -/
  line : List (Char × τ)
  /-- `sn_rcur` is beyond `sn_rend`: the line returned last was cut off by the
  end of the connection. -/
  past : Bool
  deriving DecidableEq

namespace Snet
variable {τ : Type}

/-- `snet_attach`. -/
def attach : Snet τ := { rbuf := [], rstate := .bol, line := [], past := false }

def textOf (l : List (Char × τ)) : Str := l.map (·.1)

/-- The scan from `eol` on, `seen` being what lies before it. It ends at a
line, or at the end of the buffer, where the reader needs more. -/
def scanFrom (sn : Snet τ) : RState → (seen rest : List (Char × τ)) → Option Str × Snet τ
  | st, seen, [] => (none, { sn with rbuf := seen, rstate := st })
  | st, seen, c :: rest =>
    if isEol c.1 then (some (textOf seen), { sn with rbuf := rest, rstate := .fuzzy, line := seen ++ [c] })
    else if c.1 = '\n' then
      if st = .fuzzy then scanFrom sn .bol [] rest
      else (some (textOf seen), { sn with rbuf := rest, rstate := .bol, line := seen ++ [c] })
    else scanFrom sn .within (seen ++ [c]) rest

def scan (sn : Snet τ) : Option Str × Snet τ := scanFrom sn sn.rstate [] sn.rbuf

/-- What a read has put behind `sn_rend`. -/
def fill (sn : Snet τ) (d : List (Char × τ)) : Snet τ := { sn with rbuf := sn.rbuf ++ d }

/-- The end of the connection: what is left in the buffer is a line. -/
def cutOff (sn : Snet τ) : Option Str × Snet τ :=
  if sn.rbuf = [] then (none, sn)
  else (some (textOf sn.rbuf), { sn with rbuf := [], line := sn.rbuf, past := true })

def unreadIn : RState → List (Char × τ) → List (Char × τ)
  | .fuzzy, c :: rest => if c.1 = '\n' then rest else c :: rest
  | _, rbuf => rbuf

/-- What the buffer holds beyond the newline of a line already returned. -/
def unread (sn : Snet τ) : List (Char × τ) := unreadIn sn.rstate sn.rbuf

def unfuzz (sn : Snet τ) : Snet τ := { sn with rstate := if sn.rstate = .fuzzy then .bol else sn.rstate }

/-- `snet_hasdata`, and what `snet_read` takes of it. -/
def hasdata (n : Nat) (sn : Snet τ) : Option Str × Snet τ :=
  if sn.rbuf = [] then (none, sn)
  else
    let sn := { sn.unfuzz with rbuf := sn.unread }
    if sn.rbuf = [] then (none, sn) else (some (textOf (sn.rbuf.take n)), { sn with rbuf := sn.rbuf.drop n })

/-! ## Marks -/

variable {P : Char × τ → Prop}

theorem unreadIn_subset (st : RState) (b : List (Char × τ)) : unreadIn st b ⊆ b := by
  unfold unreadIn
  split
  · split
    · exact List.subset_cons_self _ _
    · exact fun _ h => h
  · exact fun _ h => h

theorem mem_unread_fill {sn : Snet τ} {d : List (Char × τ)} {c : Char × τ} (h : c ∈ (sn.fill d).unread) :
    c ∈ sn.unread ∨ c ∈ d := by
  rcases hb : sn.rbuf with _ | ⟨b, r⟩
  · refine .inr (unreadIn_subset sn.rstate d ?_)
    simpa [fill, unread, hb] using h
  · have happ : (sn.fill d).unread = sn.unread ++ d := by
      simp only [fill, unread, hb, List.cons_append]
      cases sn.rstate with
      | fuzzy => simp only [unreadIn]; split <;> rfl
      | bol => rfl
      | within => rfl
    rw [happ] at h
    exact List.mem_append.1 h

/-- What the scan hands out, and what it leaves, was there to be read. -/
theorem scanFrom_marks (sn : Snet τ) (st : RState) (seen rest : List (Char × τ)) (hseen : ∀ c ∈ seen, P c)
    (hrest : ∀ c ∈ unreadIn st rest, P c) :
    (∀ c ∈ (scanFrom sn st seen rest).2.unread, P c) ∧
      match (scanFrom sn st seen rest).1 with
      | none => ∀ c ∈ (scanFrom sn st seen rest).2.rbuf, P c
      | some _ => ∀ c ∈ (scanFrom sn st seen rest).2.line, P c := by
  have hsnoc : ∀ {seen : List (Char × τ)} {c : Char × τ}, (∀ d ∈ seen, P d) → P c → ∀ d ∈ seen ++ [c], P d := by
    intro seen c hs hc d hd
    rcases List.mem_append.1 hd with hd | hd
    · exact hs d hd
    · exact List.mem_singleton.1 hd ▸ hc
  induction st, seen, rest using @scanFrom.induct τ with
  | case1 st seen => exact ⟨fun c hc => hseen c (unreadIn_subset _ _ hc), hseen⟩
  | case2 st seen c rest hc =>
    have hne : c.1 ≠ '\n' := by rintro he; simp [isEol, he] at hc
    have hall : ∀ d ∈ c :: rest, P d := by
      cases st <;> simpa [unreadIn, hne] using hrest
    simp only [scanFrom, hc, if_true]
    exact ⟨fun d hd => hall d (List.mem_cons_of_mem _ (unreadIn_subset _ _ hd)),
      hsnoc hseen (hall c List.mem_cons_self)⟩
  | case3 seen c rest hc hn ih =>
    simp only [scanFrom, hn, if_true]
    refine ih (by simp) fun d hd => hrest d ?_
    simpa [unreadIn, hn] using hd
  | case4 st seen c rest hc hn hf =>
    have hall : ∀ d ∈ c :: rest, P d := by
      cases st <;> simp_all [unreadIn]
    simp only [scanFrom, hn, hf, if_true]
    exact ⟨fun d hd => hall d (List.mem_cons_of_mem _ hd), hsnoc hseen (hall c List.mem_cons_self)⟩
  | case5 st seen c rest hc hn ih =>
    have hall : ∀ d ∈ c :: rest, P d := by
      cases st <;> simpa [unreadIn, hn] using hrest
    simp only [scanFrom, hc, hn]
    exact ih (hsnoc hseen (hall c List.mem_cons_self)) fun d hd => hall d (List.mem_cons_of_mem _ hd)

theorem scan_marks {sn : Snet τ} (h : ∀ c ∈ sn.unread, P c) :
    (∀ c ∈ sn.scan.2.unread, P c) ∧
      match sn.scan.1 with
      | none => ∀ c ∈ sn.scan.2.rbuf, P c
      | some _ => ∀ c ∈ sn.scan.2.line, P c :=
  scanFrom_marks sn sn.rstate [] sn.rbuf (by simp) h

theorem unfuzz_unread (sn : Snet τ) (b : List (Char × τ)) : ({ sn.unfuzz with rbuf := b } : Snet τ).unread = b := by
  simp only [unread, unfuzz]
  cases sn.rstate <;> rfl

/-- `snet_read` takes what is to be read and nothing else. -/
theorem hasdata_marks (n : Nat) {sn : Snet τ} (h : ∀ c ∈ sn.unread, P c) : ∀ c ∈ (sn.hasdata n).2.unread, P c := by
  unfold hasdata
  split
  · exact h
  · dsimp only
    split
    · rw [unfuzz_unread]; exact h
    · intro c hc
      have : c ∈ sn.unread.drop n := by rwa [← unfuzz_unread sn (sn.unread.drop n)]
      exact h c (List.mem_of_mem_drop this)

theorem hasdata_empty {n : Nat} {sn : Snet τ} (h : (sn.hasdata n).1 = none) : (sn.hasdata n).2.rbuf = [] := by
  unfold hasdata at h ⊢
  split at h
  · rename_i hb; rw [if_pos hb]; exact hb
  · rename_i hb
    rw [if_neg hb]
    dsimp only at h ⊢
    split at h
    · rename_i hu; rw [if_pos hu]; exact hu
    · cases h

theorem cutOff_marks {sn : Snet τ} (h : ∀ c ∈ sn.rbuf, P c) :
    (∀ c ∈ sn.cutOff.2.unread, P c) ∧ (sn.cutOff.1.isSome → ∀ c ∈ sn.cutOff.2.line, P c) := by
  unfold cutOff
  split
  · exact ⟨fun c hc => h c (unreadIn_subset _ _ hc), by simp⟩
  · refine ⟨fun c hc => ?_, fun _ => h⟩
    exact absurd (unreadIn_subset _ _ hc) (by simp)

end Snet
end Cosign
