import Cosign.Common.Substitute
import Cosign.Lib.Stores
/-!
# Where `match_substitute` reads and writes

Every way of appending to the buffer is tested first. An index into the array of
matches is tested against one of its ends.
-/

namespace Cosign

open Lib

/-! ## The run -/

inductive Access
  | read (i : Int)
  | write (i : Nat) (c : Char)
deriving DecidableEq, Repr

def writes (b : Nat) (cs : Str) : List Access := (storesFrom b cs).map fun s => .write s.1 s.2

/-- `strncpy(b, s, n)`, which fills up with NULs. -/
def strncpy (s : Str) (n : Nat) : Str := s.take n ++ List.replicate (n - s.length) nul

/-- Accesses, and what is returned: nothing after a read outside the array. -/
abbrev Accessed := List Access × Option Int

/-- `as` before the rest of the run. -/
def Accessed.after (as : List Access) (r : Accessed) : Accessed := (as ++ r.1, r.2)

/-- `match_substitute` on the rest of the pattern, at `b`. -/
def substituteRun (len nmatch : Nat) (rm : Nat → Int × Int) (source : Str) : (pattern : Str) → (b : Nat) → Accessed
  | [], b => if b + 1 ≥ len then ([], some (-1)) else ([.write b nul], some 0)
  | [c], b =>
    if c = '$' then ([], some (-1))
    else if b + 1 ≥ len then ([], some (-1))
    else .after (writes b [c]) (substituteRun len nmatch rm source [] (b + 1))
  | c :: d :: p, b =>
    if c ≠ '$' then
      if b + 1 ≥ len then ([], some (-1))
      else .after (writes b [c]) (substituteRun len nmatch rm source (d :: p) (b + 1))
    else if d = '$' ∨ numLength (d :: p) = 0 then
      if b + 1 ≥ len then ([], some (-1))
      else .after (writes b ['$']) (substituteRun len nmatch rm source p (b + 1))
    else
      let n := numLength (d :: p)
      let i := atoi (d :: p)
      if i ≥ nmatch then
        if b + 1 + n ≥ len then ([], some (-1))
        else .after (writes b ('$' :: strncpy (d :: p) n)) (substituteRun len nmatch rm source p (b + 1 + n))
      -- `matches[i]` is before the array
      else if i < 0 then ([.read i], none)
      else
        let (so, eo) := rm i.toNat
        let matchlen := (eo - so).toNat
        if b + matchlen ≥ len then ([.read i], some (-1))
        else .after (.read i :: .read i :: writes b (strncpy (source.drop so.toNat) matchlen))
          (substituteRun len nmatch rm source p (b + matchlen))

/-- What a run leaves in the buffer. -/
def writesOf (as : List Access) : List (Nat × Char) :=
  as.filterMap fun
    | .read _ => none
    | .write i c => some (i, c)

/-- Nothing is read outside the array or written outside the buffer, and the
text that 0 promises ends in the buffer. -/
def InBounds (len nmatch : Nat) (r : Accessed) : Prop :=
  (∀ i : Int, .read i ∈ r.1 → 0 ≤ i ∧ i < nmatch) ∧ (∀ i c, .write i c ∈ r.1 → i < len) ∧
    (r.2 = some 0 → ∀ mem, ∃ i < len, storeAll mem (writesOf r.1) i = nul)

/-- A negative number comes after a `$`, and what goes before it is copied to
less than the buffer holds. -/
def NegativeWithin (len nmatch : Nat) (rm : Nat → Int × Int) (source pattern : Str) : Prop :=
  ∃ p s t, pattern = p ++ '$' :: s ∧ copied nmatch rm source p = some (some t) ∧ t.length < len ∧
    numLength s ≠ 0 ∧ atoi s < 0

/-! ## Accesses -/

@[simp] theorem mem_after_read {as : List Access} {r : Accessed} {i : Int} :
    Access.read i ∈ (r.after as).1 ↔ .read i ∈ as ∨ .read i ∈ r.1 := List.mem_append

theorem not_read_writes (b : Nat) (cs : Str) (i : Int) : ¬ Access.read i ∈ writes b cs := by
  simp [writes]

theorem write_mem {b i : Nat} {cs : Str} {c : Char} (h : .write i c ∈ writes b cs) : i < b + cs.length := by
  obtain ⟨⟨j, c'⟩, hs, he⟩ := List.mem_map.1 h
  cases he
  exact (mem_storesFrom hs).2

theorem writesOf_writes (b : Nat) (cs : Str) : writesOf (writes b cs) = storesFrom b cs := by
  simp [writesOf, writes, List.filterMap_map]

theorem writesOf_append (as bs : List Access) : writesOf (as ++ bs) = writesOf as ++ writesOf bs := List.filterMap_append

theorem strncpy_length (s : Str) (n : Nat) : (strncpy s n).length = n := by
  rw [strncpy, List.length_append, List.length_take, List.length_replicate]
  omega

theorem strncpy_eq {s : Str} {n : Nat} (h : n ≤ s.length) : strncpy s n = s.take n := by
  rw [strncpy, Nat.sub_eq_zero_of_le h, List.replicate_zero, List.append_nil]

section
variable {len nmatch : Nat} {rm : Nat → Int × Int} {source : Str}

/-- What any run keeps to: reads below `nmatch`, writes below `len`, and a NUL at the end of one that returns 0. -/
structure Bounded (len nmatch : Nat) (r : Accessed) : Prop where
  read : ∀ i : Int, .read i ∈ r.1 → i < nmatch
  write : ∀ i c, .write i c ∈ r.1 → i < len
  terminated : r.2 = some 0 → ∃ as, ∃ i < len, r.1 = as ++ [.write i nul]

theorem Bounded.rejected : Bounded len nmatch ([], some (-1)) := ⟨by simp, by simp, by simp⟩

theorem Bounded.after {as : List Access} {r : Accessed} (hread : ∀ i : Int, .read i ∈ as → i < nmatch)
    (hwrite : ∀ i c, .write i c ∈ as → i < len) (h : Bounded len nmatch r) : Bounded len nmatch (r.after as) := by
  refine ⟨fun i hi => ?_, fun i c hi => ?_, fun h0 => ?_⟩
  · exact (List.mem_append.1 hi).elim (hread i) (h.read i)
  · exact (List.mem_append.1 hi).elim (hwrite i c) (h.write i c)
  · obtain ⟨bs, i, hi, he⟩ := h.terminated h0
    exact ⟨as ++ bs, i, hi, by rw [Accessed.after, he, List.append_assoc]⟩

theorem Bounded.written {b : Nat} {cs : Str} {r : Accessed} (hb : b + cs.length ≤ len) (h : Bounded len nmatch r) :
    Bounded len nmatch (r.after (writes b cs)) :=
  h.after (fun i hi => absurd hi (not_read_writes b cs i)) fun _ _ hi => Nat.lt_of_lt_of_le (write_mem hi) hb

theorem substituteRun_kept (p : Str) (b : Nat) : Bounded len nmatch (substituteRun len nmatch rm source p b) := by
  induction p using copied.induct nmatch generalizing b with
  | case1 =>
    rw [substituteRun]
    split
    · exact .rejected
    · exact ⟨by simp, by simp; omega, fun _ => ⟨[], b, by omega, rfl⟩⟩
  | case2 => exact .rejected
  | case3 c hc =>
    rw [substituteRun, if_neg hc]
    split
    · exact .rejected
    · refine .written (by simp; omega) ?_
      rw [substituteRun]
      split
      · exact .rejected
      · exact ⟨by simp, by simp; omega, fun _ => ⟨[], b + 1, by omega, rfl⟩⟩
  | case4 c d p hc ih =>
    rw [substituteRun, if_pos hc]
    split
    · exact .rejected
    · exact .written (by simp; omega) (ih _)
  | case5 c d p hc hd ih =>
    rw [substituteRun, if_neg hc, if_pos hd]
    split
    · exact .rejected
    · exact .written (by simp; omega) (ih _)
  | case6 c d p hc hd hi ih =>
    rw [substituteRun, if_neg hc, if_neg hd]
    dsimp only
    rw [if_pos hi]
    split
    · exact .rejected
    · refine .written ?_ (ih _)
      rw [List.length_cons, strncpy_length]
      omega
  | case7 c d p hc hd hi hneg =>
    rw [substituteRun, if_neg hc, if_neg hd]
    dsimp only
    rw [if_neg hi, if_pos hneg]
    exact ⟨by simp; omega, by simp, by simp⟩
  | case8 c d p hc hd hi hneg ih =>
    rw [substituteRun, if_neg hc, if_neg hd]
    dsimp only
    rw [if_neg hi, if_neg hneg]
    have hread : ∀ i : Int, Access.read i = .read (atoi (d :: p)) → i < nmatch := by
      rintro i ⟨⟩
      omega
    split
    · exact ⟨fun i h => hread i (List.mem_singleton.1 h), by simp, by simp⟩
    · refine .after (fun i h => ?_) (fun i c h => ?_) (ih _)
      · simp only [List.mem_cons] at h
        obtain h | h | h := h
        · exact hread i h
        · exact hread i h
        · exact absurd h (not_read_writes _ _ i)
      · simp only [List.mem_cons, reduceCtorEq, false_or] at h
        have := write_mem h
        rw [strncpy_length] at this
        omega

theorem Bounded.inBounds_iff {r : Accessed} (h : Bounded len nmatch r) :
    InBounds len nmatch r ↔ ¬ ∃ i : Int, i < 0 ∧ .read i ∈ r.1 := by
  constructor
  · rintro ⟨hr, -, -⟩ ⟨i, hi, hm⟩
    have := (hr i hm).1
    omega
  · intro hno
    refine ⟨fun i hi => ⟨?_, h.read i hi⟩, h.write, fun h0 mem => ?_⟩
    · by_contra hneg
      exact hno ⟨i, by omega, hi⟩
    · obtain ⟨as, i, hi, he⟩ := h.terminated h0
      refine ⟨i, hi, ?_⟩
      rw [he, writesOf_append]
      exact storeAll_snoc mem _ i nul

end

/-! ## Numbers before a `$` -/

theorem takeWhile_stop {p : Char → Bool} {c : Char} (hc : p c = false) (u s : Str) :
    (u ++ c :: s).takeWhile p = u.takeWhile p := by
  induction u with
  | nil => exact List.takeWhile_cons_of_neg (by simp [hc])
  | cons d u ih => rw [List.cons_append, List.takeWhile_cons, List.takeWhile_cons, ih]

theorem dropWhile_stop {p : Char → Bool} {c : Char} (hc : p c = false) (u s : Str) :
    (u ++ c :: s).dropWhile p = u.dropWhile p ++ c :: s := by
  induction u with
  | nil => exact List.dropWhile_cons_of_neg (by simp [hc])
  | cons d u ih =>
    rw [List.cons_append, List.dropWhile_cons, List.dropWhile_cons, ih]
    split <;> rfl

def signLength (q : Str) : Nat := match q with
  | '-' :: _ => 1
  | '+' :: _ => 1
  | _ => 0

theorem signLength_eq (q : Str) : signLength q = if q.head? = some '-' ∨ q.head? = some '+' then 1 else 0 := by
  unfold signLength
  split
  · rfl
  · rfl
  · rename_i h1 h2
    cases q with
    | nil => rfl
    | cons c q =>
      have hm : c ≠ '-' := fun h => h1 q (h ▸ rfl)
      have hp : c ≠ '+' := fun h => h2 q (h ▸ rfl)
      simp [hm, hp]

theorem numLength_eq (s : Str) (k : Nat)
    (hk : k = (s.takeWhile isspace).length + signLength (s.drop (s.takeWhile isspace).length)) :
    numLength s = if ((s.drop k).takeWhile Char.isDigit).length = 0 then 0
      else k + ((s.drop k).takeWhile Char.isDigit).length := by
  rw [hk]
  rfl

/-- A `$` ends a number. -/
theorem numLength_dollar (u s : Str) : numLength (u ++ '$' :: s) = numLength u := by
  have hsp : isspace '$' = false := by decide
  have hdig : Char.isDigit '$' = false := by decide
  have hlen : (u.takeWhile isspace).length ≤ u.length := (List.takeWhile_prefix isspace).length_le
  have hds : ∀ k ≤ u.length, ((u ++ '$' :: s).drop k).takeWhile Char.isDigit = (u.drop k).takeWhile Char.isDigit := by
    intro k hk
    rw [List.drop_append_of_le_length hk, takeWhile_stop hdig]
  have hhead : ∀ c ≠ '$', (u.drop (u.takeWhile isspace).length ++ '$' :: s).head? = some c ↔
      (u.drop (u.takeWhile isspace).length).head? = some c := by
    intro c hc
    cases u.drop (u.takeWhile isspace).length with
    | nil => simpa using Ne.symm hc
    | cons d q => exact Iff.rfl
  have hsign : signLength ((u ++ '$' :: s).drop (u.takeWhile isspace).length) =
      signLength (u.drop (u.takeWhile isspace).length) := by
    rw [signLength_eq, signLength_eq, List.drop_append_of_le_length hlen]
    simp only [hhead '-' (by decide), hhead '+' (by decide)]
  have hle : (u.takeWhile isspace).length + signLength (u.drop (u.takeWhile isspace).length) ≤ u.length := by
    rw [signLength_eq]
    split
    · rename_i hs
      by_contra hge
      rw [List.drop_eq_nil_of_le (by omega)] at hs
      simp at hs
    · exact hlen
  rw [numLength_eq u _ rfl, numLength_eq (u ++ '$' :: s) _ (by rw [takeWhile_stop hsp, hsign]), hds _ hle]

/-- The number itself. -/
def strtolOf (q : Str) : Int := match q with
  | '-' :: r => max (-2 ^ 63) (-(digits r : Int))
  | '+' :: r => min (2 ^ 63 - 1) (digits r : Int)
  | r => min (2 ^ 63 - 1) (digits r : Int)

theorem atoi_dollar (u s : Str) : atoi (u ++ '$' :: s) = atoi u := by
  have hd : ∀ r, digits (r ++ '$' :: s) = digits r := fun r => by
    rw [digits, takeWhile_stop (by decide), digits]
  have hof : ∀ q, strtolOf (q ++ '$' :: s) = strtolOf q := by
    intro q
    cases q with
    | nil => rfl
    | cons c r =>
      by_cases hm : c = '-'
      · rw [hm]
        exact congrArg (fun n : Nat => max (-2 ^ 63) (-(n : Int))) (hd r)
      by_cases hp : c = '+'
      · rw [hp]
        exact congrArg (fun n : Nat => min (2 ^ 63 - 1) (n : Int)) (hd r)
      have hel : ∀ r, strtolOf (c :: r) = min (2 ^ 63 - 1) (digits (c :: r) : Int) := by
        intro r
        rw [strtolOf]
        · exact fun _ h => hm (List.cons.inj h).1
        · exact fun _ h => hp (List.cons.inj h).1
      rw [List.cons_append, hel, hel, ← List.cons_append, hd]
  have hst : ∀ v, strtol v = strtolOf (v.dropWhile isspace) := fun v => rfl
  rw [atoi, atoi, hst, hst, dropWhile_stop (by decide), hof]

/-! ## Reads before the array -/

section
variable {len nmatch : Nat} {rm : Nat → Int × Int} {source : Str}

/-- `NegativeWithin` for the rest of a pattern, with `b` characters in the buffer. -/
def NegativeFrom (len nmatch : Nat) (rm : Nat → Int × Int) (source : Str) (b : Nat) (pattern : Str) : Prop :=
  ∃ p s t, pattern = p ++ '$' :: s ∧ copied nmatch rm source p = some (some t) ∧ b + t.length < len ∧
    numLength s ≠ 0 ∧ atoi s < 0

theorem NegativeFrom.lt {b : Nat} {p : Str} (h : NegativeFrom len nmatch rm source b p) : b < len := by
  obtain ⟨_, _, t, -, -, hlt, -⟩ := h
  omega

theorem negativeFrom_token {k u p : Str} {b : Nat}
    (hcopy : ∀ q s, p = q ++ '$' :: s → copied nmatch rm source (k ++ q) = before u (copied nmatch rm source q))
    (hin : ∀ q s t, k ++ p = q ++ '$' :: s → copied nmatch rm source q = some (some t) → numLength s ≠ 0 → atoi s < 0 →
      ∃ q', q = k ++ q') :
    NegativeFrom len nmatch rm source b (k ++ p) ↔ NegativeFrom len nmatch rm source (b + u.length) p := by
  constructor
  · rintro ⟨q, s, t, he, hc, hlt, hn, ha⟩
    obtain ⟨q', rfl⟩ := hin q s t he hc hn ha
    rw [List.append_assoc] at he
    have he := List.append_cancel_left he
    rw [hcopy q' s he] at hc
    obtain ⟨t', ht', rfl⟩ := before_some hc
    rw [List.length_append] at hlt
    exact ⟨q', s, t', he, ht', by omega, hn, ha⟩
  · rintro ⟨q, s, t, he, hc, hlt, hn, ha⟩
    refine ⟨k ++ q, s, u ++ t, by rw [he, List.append_assoc], ?_, by rw [List.length_append]; omega, hn, ha⟩
    rw [hcopy q s he, hc]
    rfl

theorem negativeFrom_char {c : Char} (hc : c ≠ '$') (p : Str) (b : Nat) :
    NegativeFrom len nmatch rm source b (c :: p) ↔ NegativeFrom len nmatch rm source (b + 1) p := by
  refine negativeFrom_token (k := [c]) (u := [c]) (fun q _ _ => copied_char hc q) fun q s t he _ _ _ => ?_
  cases q with
  | nil => exact absurd (List.cons.inj he).1 hc
  | cons a q => exact ⟨q, by rw [← (List.cons.inj he).1]; rfl⟩

/-- A `$` and the character after it, when they do not start a negative number. -/
theorem negativeFrom_dollar {d : Char} {u p : Str} {b : Nat} (hno : numLength (d :: p) ≠ 0 → 0 ≤ atoi (d :: p))
    (hcopy : ∀ q s, p = q ++ '$' :: s → copied nmatch rm source ('$' :: d :: q) = before u (copied nmatch rm source q)) :
    NegativeFrom len nmatch rm source b ('$' :: d :: p) ↔ NegativeFrom len nmatch rm source (b + u.length) p := by
  refine negativeFrom_token (k := ['$', d]) hcopy fun q s t he hc hn ha => ?_
  match q with
  | [] =>
    obtain rfl : d :: p = s := (List.cons.inj he).2
    have := hno hn
    omega
  | [a] =>
    obtain rfl := (List.cons.inj he).1
    cases hc
  | a :: e :: q =>
    have h1 := List.cons.inj he
    exact ⟨q, by rw [← h1.1, ← (List.cons.inj h1.2).1]; rfl⟩

/-- A token and its test for room. -/
theorem negative_step {as : List Access} {r r' : Accessed} {b n : Nat} {p q : Str}
    (has : ∀ i : Int, i < 0 → .read i ∉ as) (hr' : ∀ i : Int, i < 0 → .read i ∉ r'.1)
    (hp : NegativeFrom len nmatch rm source b p ↔ NegativeFrom len nmatch rm source (b + n) q)
    (ih : b + n < len → ((∃ i : Int, i < 0 ∧ .read i ∈ r.1) ↔ NegativeFrom len nmatch rm source (b + n) q)) :
    (∃ i : Int, i < 0 ∧ .read i ∈ (if b + n ≥ len then r' else r.after as).1) ↔
      NegativeFrom len nmatch rm source b p := by
  rw [hp]
  split
  · rename_i hge
    exact ⟨fun ⟨i, hi, hm⟩ => absurd hm (hr' i hi), fun h => absurd h.lt (by omega)⟩
  · rename_i hlt
    rw [← ih (by omega)]
    constructor
    · rintro ⟨i, hi, hm⟩
      exact ⟨i, hi, (mem_after_read.1 hm).resolve_left (has i hi)⟩
    · exact fun ⟨i, hi, hm⟩ => ⟨i, hi, mem_after_read.2 (.inr hm)⟩

theorem not_negativeFrom_nil (b : Nat) : ¬ NegativeFrom len nmatch rm source b [] := by
  rintro ⟨q, s, t, he, -⟩
  cases q <;> cases he

/-- The code reads before the array when it comes to a negative number. -/
theorem read_negative_iff (hm : Matches nmatch rm source) (p : Str) {b : Nat} (hb : b < len) :
    (∃ i : Int, i < 0 ∧ .read i ∈ (substituteRun len nmatch rm source p b).1) ↔
      NegativeFrom len nmatch rm source b p := by
  have hw : ∀ (b : Nat) (cs : Str) (i : Int), i < 0 → .read i ∉ writes b cs := fun b cs i _ => not_read_writes b cs i
  have hrej : ∀ i : Int, i < 0 → Access.read i ∉ (([], some (-1)) : Accessed).1 := fun i _ h => by cases h
  have hnil : ∀ b, (∃ i : Int, i < 0 ∧ Access.read i ∈ (substituteRun len nmatch rm source [] b).1) ↔
      NegativeFrom len nmatch rm source b [] := by
    refine fun b => ⟨?_, fun h => absurd h (not_negativeFrom_nil b)⟩
    rintro ⟨i, -, hi⟩
    rw [substituteRun] at hi
    split at hi <;> simp at hi
  induction p using copied.induct nmatch generalizing b with
  | case1 => exact hnil b
  | case2 =>
    refine ⟨fun h => ?_, ?_⟩
    · obtain ⟨i, -, hi⟩ := h
      simp [substituteRun] at hi
    rintro ⟨q, s, t, he, hc, -, hn, -⟩
    cases q with
    | nil =>
      obtain rfl : [] = s := (List.cons.inj he).2
      exact absurd rfl hn
    | cons a q => exact absurd (List.cons.inj he).2.symm (by simp)
  | case3 c hc =>
    rw [substituteRun, if_neg hc]
    exact negative_step (hw _ _) hrej (negativeFrom_char hc [] b) fun _ => hnil _
  | case4 c d p hc ih =>
    rw [substituteRun, if_pos hc]
    exact negative_step (hw _ _) hrej (negativeFrom_char hc _ b) fun hlt => ih hlt
  | case5 c d p hc hd ih =>
    obtain rfl : c = '$' := not_not.1 hc
    rw [substituteRun, if_neg hc, if_pos hd]
    refine negative_step (hw _ _) hrej (negativeFrom_dollar (u := ['$']) (fun hn => ?_) fun q s he => ?_) fun hlt => ih hlt
    · obtain rfl := hd.resolve_right hn
      exact absurd rfl hn
    · refine copied_other (hd.imp_right fun h => ?_)
      rw [he, ← List.cons_append, numLength_dollar] at h
      exact h
  | case6 c d p hc hd hi ih =>
    obtain rfl : c = '$' := not_not.1 hc
    rw [substituteRun, if_neg hc, if_neg hd]
    dsimp only
    rw [if_pos hi, Nat.add_assoc]
    have hlen : ('$' :: strncpy (d :: p) (numLength (d :: p))).length = 1 + numLength (d :: p) := by
      rw [List.length_cons, strncpy_length, Nat.add_comm]
    refine negative_step (hw _ _) hrej ?_ fun hlt => ih hlt
    rw [← hlen]
    refine negativeFrom_dollar (fun _ => by omega) fun q s he => ?_
    rw [he, ← List.cons_append, numLength_dollar] at hd
    rw [he, ← List.cons_append, atoi_dollar] at hi
    rw [copied, if_neg hc, if_neg hd, if_pos hi, he, ← List.cons_append, numLength_dollar,
      strncpy_eq (by rw [List.length_append]; have := numLength_le (d :: q); omega),
      List.take_append_of_le_length (numLength_le (d :: q))]
  | case7 c d p hc hd hi hneg =>
    obtain rfl : c = '$' := not_not.1 hc
    rw [substituteRun, if_neg hc, if_neg hd]
    dsimp only
    rw [if_neg hi, if_pos hneg]
    refine ⟨fun _ => ⟨[], d :: p, [], rfl, by rw [copied], hb, fun hn => hd (.inr hn), hneg⟩, fun _ => ?_⟩
    exact ⟨_, hneg, List.mem_singleton_self _⟩
  | case8 c d p hc hd hi hneg ih =>
    obtain rfl : c = '$' := not_not.1 hc
    rw [substituteRun, if_neg hc, if_neg hd]
    dsimp only
    rw [if_neg hi, if_neg hneg]
    have hlen := hm.length (i := (atoi (d :: p)).toNat) (by omega)
    refine negative_step (fun i hi hmem => ?_) (fun i hi hmem => ?_) ?_ fun hlt => ih hlt
    · simp only [List.mem_cons, Access.read.injEq] at hmem
      obtain rfl | rfl | hmem := hmem
      · omega
      · omega
      · exact hw _ _ i hi hmem
    · obtain rfl := Access.read.inj (List.mem_singleton.1 hmem)
      omega
    · rw [← hlen]
      refine negativeFrom_dollar (fun _ => by omega) fun q s he => ?_
      rw [he, ← List.cons_append, numLength_dollar] at hd
      rw [he, ← List.cons_append, atoi_dollar] at hi hneg
      rw [copied, if_neg hc, if_neg hd, if_neg hi, if_neg hneg, he, ← List.cons_append, atoi_dollar]

/-- `match_substitute` stays in bounds unless it comes to a negative number with room left. -/
theorem substituteRun_inBounds_iff (hlen : 1 ≤ len) (hm : Matches nmatch rm source) (p : Str) :
    InBounds len nmatch (substituteRun len nmatch rm source p 0) ↔ ¬ NegativeWithin len nmatch rm source p := by
  rw [(substituteRun_kept p 0).inBounds_iff, read_negative_iff hm p (by omega)]
  simp only [NegativeFrom, NegativeWithin, Nat.zero_add]

end

theorem substituteRun_inBounds_plain :
    InBounds 8 2 (substituteRun 8 2 (fun _ => (0, 3)) "ann".toList "x$1".toList 0) ↔
      ¬ NegativeWithin 8 2 (fun _ => (0, 3)) "ann".toList "x$1".toList :=
  substituteRun_inBounds_iff (by decide) (fun _ _ => .inr (by decide)) _

/-- A pattern of one word. -/
theorem substituteRun_outside : ¬ ∀ (len nmatch : Nat) (rm : Nat → Int × Int) (source pattern : Str),
    1 ≤ len → 1 ≤ nmatch → Matches nmatch rm source → InBounds len nmatch (substituteRun len nmatch rm source pattern 0) := by
  intro h
  have := (h 1024 2 noGroups [] "$-1".toList (by decide) (by decide) (matches_noGroups 2)).1 (-1) (by decide)
  exact absurd this.1 (by decide)

/-! ## The text -/

section
variable {len nmatch : Nat} {rm : Nat → Int × Int} {source : Str}

/-- The run returns what `matchSubstitute` says, and leaves its text and a NUL behind. -/
def Agrees (out : Str) : Option (Option Str) → Accessed → Prop
  | none, r => r.2 = none
  | some none, r => r.2 = some (-1)
  | some (some t), r => r.2 = some 0 ∧ ∃ u, t = out ++ u ∧ writesOf r.1 = storesFrom out.length (u ++ [nul])

theorem Agrees.after {out u : Str} {as : List Access} {x : Option (Option Str)} {r : Accessed}
    (has : writesOf as = storesFrom out.length u) (h : Agrees (out ++ u) x r) : Agrees out x (r.after as) := by
  match x with
  | none => exact h
  | some none => exact h
  | some (some t) =>
    obtain ⟨h0, v, rfl, hv⟩ := h
    refine ⟨h0, u ++ v, List.append_assoc .., ?_⟩
    rw [Accessed.after, writesOf_append, has, hv, List.length_append, List.append_assoc, storesFrom_append _ u]

theorem Agrees.written {out u : Str} {n : Nat} {x : Option (Option Str)} {r : Accessed} (hn : n = u.length)
    (h : out.length + n < len → Agrees (out ++ u) x r) :
    Agrees out (if out.length + n ≥ len then some none else x)
      (if out.length + n ≥ len then ([], some (-1)) else r.after (writes out.length u)) := by
  split
  · rfl
  · exact (h (by omega)).after (writesOf_writes _ _)

theorem substituteRun_agrees (hm : Matches nmatch rm source) (p out : Str) :
    Agrees out (matchSubstitute len nmatch rm source p out) (substituteRun len nmatch rm source p out.length) := by
  have hnil : ∀ out : Str, Agrees out (matchSubstitute len nmatch rm source [] out)
      (substituteRun len nmatch rm source [] out.length) := by
    intro out
    rw [matchSubstitute, substituteRun]
    split
    · rfl
    · exact ⟨rfl, [], (List.append_nil out).symm, rfl⟩
  have hl : ∀ (out u : Str), out.length + u.length = (out ++ u).length := fun out u => List.length_append.symm
  induction p using copied.induct nmatch generalizing out with
  | case1 => exact hnil out
  | case2 => rfl
  | case3 c hc =>
    rw [matchSubstitute, if_neg hc, substituteRun, if_neg hc]
    exact .written (u := [c]) rfl fun _ => hl out [c] ▸ hnil (out ++ [c])
  | case4 c d p hc ih =>
    rw [matchSubstitute, if_pos hc, substituteRun, if_pos hc]
    exact .written (u := [c]) rfl fun _ => hl out [c] ▸ ih (out ++ [c])
  | case5 c d p hc hd ih =>
    rw [matchSubstitute, if_neg hc, if_pos hd, substituteRun, if_neg hc, if_pos hd]
    exact .written (u := ['$']) rfl fun _ => hl out ['$'] ▸ ih (out ++ ['$'])
  | case6 c d p hc hd hi ih =>
    rw [matchSubstitute, if_neg hc, if_neg hd, substituteRun, if_neg hc, if_neg hd]
    dsimp only
    rw [if_pos hi, if_pos hi, Nat.add_assoc, strncpy_eq (numLength_le (d :: p))]
    have hn : 1 + numLength (d :: p) = ('$' :: (d :: p).take (numLength (d :: p))).length := by
      rw [List.length_cons, List.length_take, Nat.min_eq_left (numLength_le (d :: p)), Nat.add_comm]
    refine .written hn fun _ => ?_
    rw [hn, hl]
    exact ih _
  | case7 c d p hc hd hi hneg =>
    rw [matchSubstitute, if_neg hc, if_neg hd, substituteRun, if_neg hc, if_neg hd]
    dsimp only
    rw [if_neg hi, if_pos hneg, if_neg hi, if_pos hneg]
    rfl
  | case8 c d p hc hd hi hneg ih =>
    rw [matchSubstitute, if_neg hc, if_neg hd, substituteRun, if_neg hc, if_neg hd]
    dsimp only
    rw [if_neg hi, if_neg hneg, if_neg hi, if_neg hneg]
    have hlen := hm.length (i := (atoi (d :: p)).toNat) (by omega)
    rw [groupText, List.length_take] at hlen
    rw [strncpy_eq (by omega)]
    split
    · rfl
    · refine Agrees.after (u := (source.drop _).take _) (by rw [← writesOf_writes]; rfl) ?_
      have := ih (out ++ (source.drop (rm (atoi (d :: p)).toNat).1.toNat).take
        ((rm (atoi (d :: p)).toNat).2 - (rm (atoi (d :: p)).toNat).1).toNat)
      rwa [← hl, List.length_take, hlen] at this

end

end Cosign
