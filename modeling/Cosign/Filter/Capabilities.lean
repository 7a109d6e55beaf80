import Cosign.Filter.Banner
/-!
# The capability list

A server offers the capabilities that its list names, up to the word that ends
in a bracket. `capa_parse` knows a word by how it begins, passes over what it
has already, and looks for the bracket behind a word that it took.
-/

namespace Cosign.Filter

/-! ## The list -/

/-- A word without the bracket that closes the list. -/
def unbracketed (w : Str) : Str := if w.getLast? = some ']' then w.dropLast else w

/-- `NAME` or `NAME=value`. -/
def names (name w : Str) : Bool :=
  lower (unbracketed w) = lower name || hasPrefix (lower name ++ ['=']) (lower (unbracketed w))

/-- The words of the list, to the one that ends in a bracket. -/
def listed : List Str → List Str
  | [] => []
  | w :: ws => if w.getLast? = some ']' then [w] else w :: listed ws

def unlisted : List Str → List Str
  | [] => []
  | w :: ws => if w.getLast? = some ']' then ws else unlisted ws

/-- What comes after `[COSIGNv<n>`, unless that closes the list. -/
def offered (w : Str) (ws : List Str) : List Str := if strtolEnd (listNumber w) = [']'] then [] else ws

/-- The masks of the capabilities that have a property. -/
def maskOf (p : Str → Bool) : Nat := caps.foldl (fun m c => if p c.1 then m ||| c.2 else m) 0

/-! ## What is heard of it -/

/-- After the words `seen`, the loop takes `w` and finds a bracket behind the name. -/
def Closes (capa : Nat) (seen : List Str) (w : Str) : Prop :=
  ∃ c ∈ caps, capa &&& c.2 = 0 ∧ hasCapa c.1 w ∧ (∀ v ∈ seen, ¬ hasCapa c.1 v) ∧ (w.drop c.1.length).head? = some ']'

instance (capa : Nat) (seen : List Str) (w : Str) : Decidable (Closes capa seen w) :=
  inferInstanceAs (Decidable (∃ c ∈ caps, capa &&& c.2 = 0 ∧ hasCapa c.1 w ∧ (∀ v ∈ seen, ¬ hasCapa c.1 v) ∧
    (w.drop c.1.length).head? = some ']'))

/-- The words to the one that the loop ends with. -/
def heard (capa : Nat) (seen : List Str) : List Str → List Str
  | [] => []
  | w :: ws => if Closes capa seen w then [w] else w :: heard capa (seen ++ [w]) ws

/-- The loop does not end inside the list. -/
def Unclosed (capa : Nat) (ws : List Str) : Prop := ∀ a w b, listed ws = a ++ w :: b → ¬ Closes capa a w

/-- A list that the loop takes for another. -/
inductive Misread (capa : Nat) (ws : List Str) : Prop
  /-- The bracket is not seen, and a word after it begins like a capability that no word before it begins like. -/
  | late {c : Str × Nat} {w : Str} (hc : c ∈ caps) (hnew : capa &&& c.2 = 0) (hopen : Unclosed capa ws)
      (hw : w ∈ unlisted ws) (hb : hasCapa c.1 w) (hno : ∀ v ∈ listed ws, ¬ hasCapa c.1 v)
  /-- A word begins like a capability that the list does not name. -/
  | alike {c : Str × Nat} {w : Str} (hc : c ∈ caps) (hnew : capa &&& c.2 = 0) (hw : w ∈ heard capa [] (listed ws))
      (hb : hasCapa c.1 w) (hno : ∀ v ∈ listed ws, ¬ names c.1 v)
  /-- A bracket inside a word ends the loop before a capability that the list names. -/
  | early {c : Str × Nat} {w : Str} (hc : c ∈ caps) (hnew : capa &&& c.2 = 0) (hw : w ∈ listed ws)
      (hn : names c.1 w) (hno : ∀ v ∈ heard capa [] (listed ws), ¬ hasCapa c.1 v)

/-! ## Masks -/

theorem testBit_maskOf (p : Str → Bool) (i : Nat) : (maskOf p).testBit i = caps.any fun c => p c.1 && c.2.testBit i := by
  simp only [maskOf, caps, List.foldl_cons, List.foldl_nil, List.any_cons, List.any_nil, Bool.or_false]
  cases p "FACTORS".toList <;> cases p "REKEY".toList <;> simp

theorem caps_mask {c : Str × Nat} (hc : c ∈ caps) : ∃ k, c.2 = 2 ^ k ∧ ∀ d ∈ caps, d.2.testBit k = true ↔ d = c := by
  simp only [caps, List.mem_cons, List.not_mem_nil, or_false] at hc
  obtain rfl | rfl := hc
  · exact ⟨0, rfl, by decide⟩
  · exact ⟨1, rfl, by decide⟩

theorem and_mask {c : Str × Nat} {k : Nat} (hk : c.2 = 2 ^ k) (n : Nat) : n &&& c.2 = 0 ↔ n.testBit k = false := by
  rw [hk, Nat.and_two_pow]
  cases n.testBit k <;> simp

theorem testBit_mask {c : Str × Nat} {k : Nat} (hc : c ∈ caps) (hk : ∀ d ∈ caps, d.2.testBit k = true ↔ d = c)
    (p : Str → Bool) :
    (maskOf p).testBit k = p c.1 := by
  rw [testBit_maskOf, Bool.eq_iff_iff, List.any_eq_true]
  constructor
  · rintro ⟨d, hd, h⟩
    rw [Bool.and_eq_true] at h
    rw [← (hk d hd).1 h.2]
    exact h.1
  · exact fun h => ⟨c, hc, by rw [h, (hk c hc).2 rfl]; rfl⟩

/-- Two sets of capabilities add the same when they agree on what is new. -/
theorem or_maskOf_eq_iff (capa : Nat) (p q : Str → Bool) :
    capa ||| maskOf p = capa ||| maskOf q ↔ ∀ c ∈ caps, capa &&& c.2 = 0 → p c.1 = q c.1 := by
  constructor
  · intro h c hc hnew
    obtain ⟨k, hk, hu⟩ := caps_mask hc
    have hb := congrArg (fun n => Nat.testBit n k) h
    simpa only [Nat.testBit_or, (and_mask hk capa).1 hnew, Bool.false_or, testBit_mask hc hu] using hb
  · intro h
    refine Nat.eq_of_testBit_eq fun i => ?_
    rw [Nat.testBit_or, Nat.testBit_or, testBit_maskOf, testBit_maskOf]
    cases hi : capa.testBit i with
    | true => rw [Bool.true_or, Bool.true_or]
    | false =>
      rw [Bool.false_or, Bool.false_or]
      rw [Bool.eq_iff_iff, List.any_eq_true, List.any_eq_true]
      refine exists_congr fun c => and_congr_right fun hc => ?_
      cases hci : c.2.testBit i with
      | false => rw [Bool.and_false, Bool.and_false]
      | true =>
        obtain ⟨k, hk, -⟩ := caps_mask hc
        have hik : k = i := by
          by_contra hne
          rw [hk, Nat.testBit_two_pow_of_ne hne] at hci
          cases hci
        rw [h c hc ((and_mask hk capa).2 (hik ▸ hi))]

/-! ## The loop -/

theorem hasCapa_unique {c d : Str × Nat} {w : Str} (hc : c ∈ caps) (hd : d ∈ caps) (hcw : hasCapa c.1 w = true)
    (hdw : hasCapa d.1 w = true) : c = d := by
  simp only [caps, List.mem_cons, List.not_mem_nil, or_false] at hc hd
  obtain rfl | rfl := hc <;> obtain rfl | rfl := hd
  · rfl
  · cases w <;> simp_all [hasCapa, lower]
  · cases w <;> simp_all [hasCapa, lower]
  · rfl

/-- The names that some word begins like. -/
def begun (ws : List Str) (name : Str) : Bool := ws.any (hasCapa name)

theorem begun_iff {ws : List Str} {name : Str} : begun ws name = true ↔ ∃ w ∈ ws, hasCapa name w = true :=
  List.any_eq_true

theorem not_begun_iff {ws : List Str} {name : Str} : begun ws name = false ↔ ∀ w ∈ ws, ¬ hasCapa name w = true := by
  simp [begun]

/-- What the loop has not taken yet. -/
theorem and_begun {capa : Nat} {seen : List Str} {c : Str × Nat} (hc : c ∈ caps) :
    (capa ||| maskOf (begun seen)) &&& c.2 = 0 ↔ capa &&& c.2 = 0 ∧ ∀ v ∈ seen, ¬ hasCapa c.1 v = true := by
  obtain ⟨k, hk, hu⟩ := caps_mask hc
  rw [and_mask hk, and_mask hk, Nat.testBit_or, testBit_mask hc hu, Bool.or_eq_false_iff, not_begun_iff]

theorem maskOf_begun_snoc {seen : List Str} {w : Str} {c : Str × Nat} (hc : c ∈ caps) (hw : hasCapa c.1 w = true) :
    maskOf (begun (seen ++ [w])) = maskOf (begun seen) ||| c.2 := by
  refine Nat.eq_of_testBit_eq fun i => ?_
  rw [Nat.testBit_or, testBit_maskOf, testBit_maskOf, Bool.eq_iff_iff, Bool.or_eq_true, List.any_eq_true, List.any_eq_true]
  constructor
  · rintro ⟨d, hd, h⟩
    rw [Bool.and_eq_true, begun_iff] at h
    obtain ⟨⟨v, hv, hdv⟩, hi⟩ := h
    rcases List.mem_append.1 hv with hv | hv
    · exact .inl ⟨d, hd, by rw [Bool.and_eq_true]; exact ⟨begun_iff.2 ⟨v, hv, hdv⟩, hi⟩⟩
    · rw [List.mem_singleton.1 hv] at hdv
      exact .inr (hasCapa_unique hd hc hdv hw ▸ hi)
  · rintro (⟨d, hd, h⟩ | hi)
    · rw [Bool.and_eq_true, begun_iff] at h
      obtain ⟨⟨v, hv, hdv⟩, hi⟩ := h
      exact ⟨d, hd, by rw [Bool.and_eq_true]; exact ⟨begun_iff.2 ⟨v, List.mem_append_left _ hv, hdv⟩, hi⟩⟩
    · exact ⟨c, hc, by rw [Bool.and_eq_true]; exact ⟨begun_iff.2 ⟨w, by simp, hw⟩, hi⟩⟩

/-- The loop takes what a word it hears begins like. -/
theorem capaLoop_eq (capa : Nat) (seen ws : List Str) :
    capaLoop (capa ||| maskOf (begun seen)) ws = capa ||| maskOf (begun (seen ++ heard capa seen ws)) := by
  induction ws generalizing seen with
  | nil => rw [heard, List.append_nil, capaLoop]
  | cons w ws ih =>
    rw [capaLoop]
    split
    · rename_i hnone
      have hno : ∀ c ∈ caps, capa &&& c.2 = 0 → (∀ v ∈ seen, ¬ hasCapa c.1 v = true) → ¬ hasCapa c.1 w = true := by
        intro c hc hnew hseen hw
        have := List.find?_eq_none.1 hnone c hc
        rw [Bool.and_eq_true, decide_eq_true_eq] at this
        exact this ⟨(and_begun hc).2 ⟨hnew, hseen⟩, hw⟩
      have hcl : ¬ Closes capa seen w := fun ⟨c, hc, hnew, hw, hseen, _⟩ => hno c hc hnew hseen hw
      have hsame : capa ||| maskOf (begun seen) = capa ||| maskOf (begun (seen ++ [w])) := by
        rw [or_maskOf_eq_iff]
        intro c hc hnew
        rw [begun, begun, List.any_append, List.any_cons, List.any_nil, Bool.or_false]
        cases hs : seen.any (hasCapa c.1) with
        | true => rfl
        | false => simpa using hno c hc hnew (not_begun_iff.1 hs)
      rw [heard, if_neg hcl, hsame, ih, List.append_assoc, List.singleton_append]
    · rename_i name mask hsome
      have hc : (name, mask) ∈ caps := List.mem_of_find?_eq_some hsome
      have hp := List.find?_some hsome
      rw [Bool.and_eq_true, decide_eq_true_eq, and_begun hc] at hp
      obtain ⟨⟨hnew, hseen⟩, hw⟩ := hp
      have hrun : capa ||| maskOf (begun seen) ||| mask = capa ||| maskOf (begun (seen ++ [w])) := by
        rw [maskOf_begun_snoc hc hw, Nat.or_assoc]
      have hcl : Closes capa seen w ↔ (w.drop name.length).head? = some ']' := by
        constructor
        · rintro ⟨d, hd, -, hdw, -, hb⟩
          rwa [hasCapa_unique hd hc hdw hw] at hb
        · exact fun hb => ⟨(name, mask), hc, hnew, hw, hseen, hb⟩
      split
      · rename_i hb
        rw [heard, if_pos (hcl.2 hb), hrun]
      · rename_i hb
        rw [heard, if_neg (fun h => hb (hcl.1 h)), hrun, ih, List.append_assoc, List.singleton_append]

/-! ## The list and what is heard -/

theorem listed_append (ws : List Str) : listed ws ++ unlisted ws = ws := by
  induction ws with
  | nil => rfl
  | cons w ws ih =>
    rw [listed, unlisted]
    split
    · rfl
    · rw [List.cons_append, ih]

theorem heard_subset (capa : Nat) (seen ws : List Str) : ∀ v ∈ heard capa seen ws, v ∈ ws := by
  induction ws generalizing seen with
  | nil => exact fun v hv => hv
  | cons w ws ih =>
    intro v hv
    rw [heard] at hv
    split at hv
    · rw [List.mem_singleton.1 hv]
      exact List.mem_cons_self
    · rcases List.mem_cons.1 hv with rfl | hv
      · exact List.mem_cons_self
      · exact List.mem_cons_of_mem _ (ih _ v hv)

theorem heard_open {capa : Nat} {a : List Str} (b : List Str) {seen : List Str}
    (h : ∀ x w y, a = x ++ w :: y → ¬ Closes capa (seen ++ x) w) :
    heard capa seen (a ++ b) = a ++ heard capa (seen ++ a) b := by
  induction a generalizing seen with
  | nil => rw [List.nil_append, List.nil_append, List.append_nil]
  | cons w a ih =>
    have hw : ¬ Closes capa seen w := by simpa using h [] w a rfl
    rw [List.cons_append, heard, if_neg hw, ih, List.append_assoc, List.singleton_append, List.cons_append]
    intro x v y he
    have := h (w :: x) v y (by rw [he, List.cons_append])
    rwa [List.append_assoc, List.singleton_append]

theorem heard_closed {capa : Nat} {x y : List Str} {w : Str} (b : List Str) {seen : List Str}
    (h : Closes capa (seen ++ x) w) : heard capa seen (x ++ w :: y ++ b) = heard capa seen (x ++ w :: y) := by
  induction x generalizing seen with
  | nil =>
    rw [List.append_nil] at h
    rw [List.nil_append, List.cons_append, heard, if_pos h, heard, if_pos h]
  | cons v x ih =>
    rw [List.cons_append, List.cons_append, heard, heard]
    split
    · rfl
    · rw [ih (by rwa [List.append_assoc, List.singleton_append])]

/-- The first new beginning among more words is heard. -/
theorem heard_late {capa : Nat} {b : List Str} {seen : List Str} {c : Str × Nat} {w : Str} (hc : c ∈ caps)
    (hnew : capa &&& c.2 = 0) (hw : w ∈ b) (hb : hasCapa c.1 w = true) (hno : ∀ v ∈ seen, ¬ hasCapa c.1 v = true) :
    ∃ d ∈ caps, capa &&& d.2 = 0 ∧ (∀ v ∈ seen, ¬ hasCapa d.1 v = true) ∧
      ∃ v ∈ heard capa seen b, hasCapa d.1 v = true := by
  induction b generalizing seen with
  | nil => cases hw
  | cons u b ih =>
    rw [heard]
    by_cases hcl : Closes capa seen u
    · rw [if_pos hcl]
      obtain ⟨d, hd, hdnew, hdu, hdno, -⟩ := hcl
      exact ⟨d, hd, hdnew, hdno, u, List.mem_singleton_self u, hdu⟩
    rw [if_neg hcl]
    by_cases hu : hasCapa c.1 u = true
    · exact ⟨c, hc, hnew, hno, u, List.mem_cons_self, hu⟩
    have hwb : w ∈ b := by
      rcases List.mem_cons.1 hw with rfl | hw
      · exact absurd hb hu
      · exact hw
    obtain ⟨d, hd, hdnew, hdno, v, hv, hdv⟩ := @ih (seen ++ [u]) hwb fun v hv => by
      rcases List.mem_append.1 hv with hv | hv
      · exact hno v hv
      · rw [List.mem_singleton.1 hv]
        exact hu
    exact ⟨d, hd, hdnew, fun v hv => hdno v (List.mem_append_left _ hv), v, List.mem_cons_of_mem _ hv, hdv⟩

/-- A word that names a capability begins like it. -/
theorem hasCapa_of_names {name w : Str} (h : names name w = true) : hasCapa name w = true := by
  have hpre : unbracketed w <+: w := by
    unfold unbracketed
    split
    · exact List.dropLast_prefix w
    · exact List.prefix_refl w
  have hlow : lower name <+: lower (unbracketed w) := by
    rw [names, Bool.or_eq_true, decide_eq_true_eq] at h
    rcases h with h | h
    · rw [h]
    · exact (List.prefix_append _ _).trans (List.isPrefixOf_iff_prefix.1 h)
  have ht := List.prefix_iff_eq_take.1 (hlow.trans (hpre.map Char.toLower))
  rw [hasCapa, decide_eq_true_eq]
  have hlen : (name.map Char.toLower).length = name.length := List.length_map Char.toLower
  rw [lower, List.map_take, ← hlen]
  exact ht.symm

/-- What the list names. -/
def named (ws : List Str) (name : Str) : Bool := (listed ws).any (names name)

theorem capaLoop_named_iff (capa : Nat) (ws : List Str) :
    capaLoop capa ws = capa ||| maskOf (named ws) ↔ ¬ Misread capa ws := by
  have hloop : capaLoop capa ws = capa ||| maskOf (begun (heard capa [] ws)) := by
    have h0 : capa ||| maskOf (begun []) = capa := by
      rw [show maskOf (begun []) = 0 from rfl, Nat.or_zero]
    have := capaLoop_eq capa [] ws
    rwa [h0, List.nil_append] at this
  have hnb : ∀ c : Str × Nat, ∀ v ∈ listed ws, names c.1 v = true → ∃ v ∈ listed ws, hasCapa c.1 v = true :=
    fun c v hv hn => ⟨v, hv, hasCapa_of_names hn⟩
  have hsplit : (Unclosed capa ws ∧ heard capa [] (listed ws) = listed ws ∧
      heard capa [] ws = listed ws ++ heard capa (listed ws) (unlisted ws)) ∨
      (¬ Unclosed capa ws ∧ heard capa [] ws = heard capa [] (listed ws)) := by
    by_cases ho : Unclosed capa ws
    · have h1 := @heard_open capa (listed ws) (unlisted ws) [] ho
      have h2 := @heard_open capa (listed ws) [] [] ho
      rw [listed_append, List.nil_append] at h1
      rw [List.append_nil, List.nil_append, heard, List.append_nil] at h2
      exact .inl ⟨ho, h2, h1⟩
    · have hc := ho
      simp only [Unclosed, not_forall, not_not] at hc
      obtain ⟨a, w, b, he, hc⟩ := hc
      have := @heard_closed capa a b w (unlisted ws) [] hc
      rw [← he, listed_append] at this
      exact .inr ⟨ho, this⟩
  rw [hloop, or_maskOf_eq_iff]
  constructor
  · rintro h (⟨hc, hnew, hopen, hw, hb, hno⟩ | ⟨hc, hnew, hw, hb, hno⟩ | ⟨hc, hnew, hw, hn, hno⟩)
    · obtain ⟨-, -, he⟩ := hsplit.resolve_right fun hr => hr.1 hopen
      obtain ⟨d, hd, hdnew, hdno, v, hv, hdv⟩ := heard_late hc hnew hw hb hno
      have hbg : begun (heard capa [] ws) d.1 = true := begun_iff.2 ⟨v, he ▸ List.mem_append_right _ hv, hdv⟩
      rw [h d hd hdnew, named, List.any_eq_true] at hbg
      obtain ⟨u, hu, hdu⟩ := hbg
      exact hdno u hu (hasCapa_of_names hdu)
    · rename_i c w
      have hbg : begun (heard capa [] ws) c.1 = true := by
        refine begun_iff.2 ⟨w, ?_, hb⟩
        rcases hsplit with ⟨-, h1, h2⟩ | ⟨-, h1⟩
        · rw [h2]
          exact List.mem_append_left _ (h1 ▸ hw)
        · exact h1 ▸ hw
      rw [h c hc hnew, named, List.any_eq_true] at hbg
      obtain ⟨u, hu, hcu⟩ := hbg
      exact hno u hu hcu
    · rename_i c w
      have hnm : named ws c.1 = true := List.any_eq_true.2 ⟨w, hw, hn⟩
      rw [← h c hc hnew, begun_iff] at hnm
      rcases hsplit with ⟨-, h1, -⟩ | ⟨-, h1⟩
      · exact hno w (by rw [h1]; exact hw) (hasCapa_of_names hn)
      · obtain ⟨v, hv, hcv⟩ := hnm
        exact hno v (h1 ▸ hv) hcv
  · intro hm c hc hnew
    have halike : ∀ v ∈ heard capa [] (listed ws), hasCapa c.1 v = true → named ws c.1 = true := by
      intro v hv hcv
      by_contra hno
      refine hm (.alike hc hnew hv hcv fun u hu hcu => hno (List.any_eq_true.2 ⟨u, hu, hcu⟩))
    rw [Bool.eq_iff_iff, begun_iff]
    rcases hsplit with ⟨ho, h1, h2⟩ | ⟨-, h1⟩
    · rw [h1] at halike
      rw [h2]
      constructor
      · rintro ⟨v, hv, hcv⟩
        rcases List.mem_append.1 hv with hv | hv
        · exact halike v hv hcv
        · by_cases hl : ∃ u ∈ listed ws, hasCapa c.1 u = true
          · obtain ⟨u, hu, hcu⟩ := hl
            exact halike u hu hcu
          · exact absurd (.late hc hnew ho (heard_subset _ _ _ v hv) hcv fun u hu hcu => hl ⟨u, hu, hcu⟩) hm
      · intro hn
        obtain ⟨u, hu, hcu⟩ := List.any_eq_true.1 hn
        exact ⟨u, List.mem_append_left _ hu, hasCapa_of_names hcu⟩
    · rw [h1]
      constructor
      · rintro ⟨v, hv, hcv⟩
        exact halike v hv hcv
      · intro hn
        obtain ⟨u, hu, hcu⟩ := List.any_eq_true.1 hn
        by_contra hno
        exact hm (.early hc hnew hu hcu fun v hv hcv => hno ⟨v, hv, hcv⟩)

/-! ## `capa_parse` -/

theorem toUnsigned_eq_iff (n : Int) : ((toUnsigned n).toNat : Int) = n ↔ 0 ≤ n ∧ n < 2 ^ 32 := by
  have hlt : (n % 2 ^ 32).toNat < 2 ^ 32 := by omega
  rw [toUnsigned, UInt32.toNat_ofNat_of_lt' hlt]
  omega

/-- The capabilities are those that the list names, and the protocol is the
list's number, if the list is not misread and the number fits. -/
theorem capaParse_named_iff {capa capa' : Nat} {w : Str} {ws : List Str} {proto : UInt32}
    (h : capaParse capa (w :: ws) = some (capa', proto)) :
    (capa' = capa ||| maskOf (named (offered w ws)) ∧ (proto.toNat : Int) = strtol (listNumber w)) ↔
      ¬ Misread capa (offered w ws) ∧ 0 ≤ strtol (listNumber w) ∧ strtol (listNumber w) < 2 ^ 32 := by
  have hproto := capaParse_proto h
  have hcapa : capa' = capaLoop capa (offered w ws) := by
    dsimp only [capaParse] at h
    split at h
    · cases h
    split at h
    · cases h
    split at h
    · rename_i he
      cases h
      rw [offered, he, if_neg (by simp)]
    · rename_i he
      cases h
      rw [offered, he, if_pos rfl, capaLoop]
    · cases h
  rw [hproto, hcapa, capaLoop_named_iff, toUnsigned_eq_iff]

theorem capaParse_named_plain :
    (3 = 0 ||| maskOf (named (offered "[COSIGNv3".toList ["FACTORS=5".toList, "REKEY]".toList])) ∧
      (((3 : UInt32).toNat : Nat) : Int) = strtol (listNumber "[COSIGNv3".toList)) ↔
    ¬ Misread 0 (offered "[COSIGNv3".toList ["FACTORS=5".toList, "REKEY]".toList]) ∧
      0 ≤ strtol (listNumber "[COSIGNv3".toList) ∧ strtol (listNumber "[COSIGNv3".toList) < 2 ^ 32 :=
  capaParse_named_iff (by decide)

/-- The bracket behind a value is not seen, so that a word after the list counts. -/
theorem capaParse_unnamed : ¬ ∀ (capa capa' : Nat) (w : Str) (ws : List Str) (proto : UInt32),
    capaParse capa (w :: ws) = some (capa', proto) →
      capa' = capa ||| maskOf (named (offered w ws)) ∧ (proto.toNat : Int) = strtol (listNumber w) := by
  intro h
  have := (h 0 3 "[COSIGNv3".toList ["FACTORS=5]".toList, "REKEY".toList] 3 (by decide)).1
  revert this
  decide

end Cosign.Filter
