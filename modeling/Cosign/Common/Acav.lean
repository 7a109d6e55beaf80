import Cosign.Common.Argcargv
import Cosign.Lib.Stores
/-!
# `acav_parse` in its memory

The line is cut into words where it lies, and the words' places go into an array
that outlives the call and grows by ten when it is full.
-/

namespace Cosign

open Lib

def acvArgc : Nat := 10

/-- `ACAV` with the default flags. `room` is the size of what `acv_argv` points to,
and `argv` what is in there, as places in the line of its call. -/
structure Acav where
  argc : Nat
  room : Nat
  argv : Nat → Option Nat

/-- A store into `acv_argv` of `room` pointers. -/
structure Slot where
  room : Nat
  index : Nat
  ptr : Option Nat

/-- What a call returned, its stores, and the array it leaves, if it still has one. -/
structure Parsed where
  ret : Int
  slots : List Slot
  bytes : List (Nat × Char)
  acav : Option (Nat × Nat)

/-- `acav_alloc`. What `malloc` gives is not set. -/
def acavAlloc (argv : Nat → Option Nat) : Acav := ⟨acvArgc, acvArgc, argv⟩

/-- The loop from `line` on, where `s` is left, with `word` for `ACV_WORD`.
`memory` says whether `realloc` has that many pointers. With the default flags
a quote and a backslash are characters as any other. -/
def acavFrom (memory : Nat → Bool) : (s : Str) → (line ac argc room : Nat) → (word : Bool) → Parsed
  | [], _, ac, argc, room, _ => ⟨ac, [⟨room, ac, none⟩], [], some (argc, room)⟩
  | c :: s, line, ac, argc, room, word =>
    if isBlank c then
      if word then
        let r := acavFrom memory s (line + 1) ac argc room false
        { r with bytes := (line, nul) :: r.bytes }
      else acavFrom memory s (line + 1) ac argc room false
    else if word then acavFrom memory s (line + 1) ac argc room true
    else
      let slot : Slot := ⟨room, ac, some line⟩
      if ac + 1 ≥ argc then
        if memory (argc + acvArgc) then
          let r := acavFrom memory s (line + 1) (ac + 1) (argc + acvArgc) (argc + acvArgc) true
          { r with slots := slot :: r.slots }
        else ⟨-1, [slot], [], none⟩
      else
        let r := acavFrom memory s (line + 1) (ac + 1) argc room true
        { r with slots := slot :: r.slots }

def acavParseIn (memory : Nat → Bool) (acav : Acav) (line : Str) : Parsed :=
  acavFrom memory line 0 0 acav.argc acav.room false

/-- The array with the stores of a call in it. -/
def stored (argv : Nat → Option Nat) (slots : List Slot) : Nat → Option Nat :=
  storeAll argv (slots.map fun s => (s.index, s.ptr))

/-- The `ACAV` after a call. -/
def Parsed.after (r : Parsed) (acav : Acav) : Option Acav :=
  r.acav.map fun (argc, room) => ⟨argc, room, stored acav.argv r.slots⟩

/-- An `ACAV` as earlier calls leave it. -/
inductive Earlier : Acav → Prop
  | alloc (argv : Nat → Option Nat) : Earlier (acavAlloc argv)
  | parse {a b : Acav} (memory : Nat → Bool) (line : Str) : Earlier a →
      (acavParseIn memory a line).after a = some b → Earlier b

/-! ## What it is for -/

/-- The maximal runs of characters that are not blank. -/
def runs (line : Str) : List Str := (line.splitOnP isBlank).filter (· ≠ [])

/-- At `p` there is the string `w`. -/
def CString (m : Nat → Char) (p : Nat) (w : Str) : Prop :=
  (∀ i (h : i < w.length), m (p + i) = w[i]) ∧ m (p + w.length) = nul ∧ nul ∉ w

/-! ## The runs -/

/-- The stores of the loop are at `ac` and above and within the room of the
array, and in the line they are within what is left of it. -/
structure Within (line left ac : Nat) (r : Parsed) : Prop where
  slots : ∀ x ∈ r.slots, ac ≤ x.index ∧ x.index < x.room
  bytes : ∀ x ∈ r.bytes, line ≤ x.1 ∧ x.1 < line + left
  acav : ∀ argc room, r.acav = some (argc, room) → argc = room ∧ acvArgc ≤ room

theorem Within.later {line left ac ac' : Nat} {r : Parsed} (h : Within (line + 1) left ac' r) (hac : ac ≤ ac') :
    Within line (left + 1) ac r :=
  ⟨fun x hx => ⟨Nat.le_trans hac (h.slots x hx).1, (h.slots x hx).2⟩,
    fun x hx => ⟨by have := (h.bytes x hx).1; omega, by have := (h.bytes x hx).2; omega⟩, h.acav⟩

theorem acavFrom_within (memory : Nat → Bool) (s : Str) {line ac argc room : Nat} (word : Bool) (hroom : argc = room)
    (hten : acvArgc ≤ room) (hac : ac < argc) : Within line s.length ac (acavFrom memory s line ac argc room word) := by
  induction s generalizing line ac argc room word with
  | nil => exact ⟨by simp [acavFrom]; omega, by simp [acavFrom], by rintro _ _ ⟨⟩; exact ⟨hroom, hten⟩⟩
  | cons c s ih =>
    have hslot : ∀ {ac' : Nat} {r : Parsed}, ac ≤ ac' → Within (line + 1) s.length ac' r →
        Within line (s.length + 1) ac { r with slots := ⟨room, ac, some line⟩ :: r.slots } := by
      intro ac' r hle hr
      refine ⟨fun x hx => ?_, (hr.later hle).bytes, hr.acav⟩
      rcases List.mem_cons.1 hx with rfl | hx
      · exact ⟨Nat.le_refl _, hroom ▸ hac⟩
      · exact (hr.later hle).slots x hx
    rw [acavFrom, List.length_cons]
    by_cases hc : isBlank c = true
    · rw [if_pos hc]
      cases word with
      | false => exact (ih false hroom hten hac).later (Nat.le_refl _)
      | true =>
        have hr := (@ih (line + 1) _ _ _ false hroom hten hac).later (Nat.le_refl _)
        refine ⟨hr.slots, fun x hx => ?_, hr.acav⟩
        rcases List.mem_cons.1 hx with rfl | hx
        · exact ⟨Nat.le_refl _, by simp⟩
        · exact hr.bytes x hx
    · rw [if_neg hc]
      cases word with
      | true => exact (ih true hroom hten hac).later (Nat.le_refl _)
      | false =>
        simp only [Bool.false_eq_true, if_false]
        split
        · split
          · exact hslot (Nat.le_succ ac) (ih true rfl (by omega) (by simp only [acvArgc]; omega))
          · exact ⟨fun x hx => List.mem_singleton.1 hx ▸ ⟨Nat.le_refl _, hroom ▸ hac⟩, by simp, by rintro _ _ ⟨⟩⟩
        · exact hslot (Nat.le_succ ac) (ih true hroom hten (by omega))

theorem Earlier.room {a : Acav} (h : Earlier a) : a.argc = a.room ∧ acvArgc ≤ a.room := by
  induction h with
  | alloc => exact ⟨rfl, Nat.le_refl _⟩
  | parse memory line _ hafter ih =>
    obtain ⟨⟨argc, room⟩, hr, rfl⟩ := Option.map_eq_some_iff.1 hafter
    exact (acavFrom_within memory line false ih.1 ih.2 (by have := ih.1; have := ih.2; simp only [acvArgc] at *; omega)).acav
      argc room hr

/-! ## Strings in memory -/

theorem CString.cons {m : Nat → Char} {p : Nat} {c : Char} {s : Str} (h : CString m p (c :: s)) :
    m p = c ∧ CString m (p + 1) s := by
  obtain ⟨hget, hend, hn⟩ := h
  rw [List.mem_cons, not_or] at hn
  refine ⟨hget 0 (by simp), fun i hi => ?_, ?_, hn.2⟩
  · have hi' : p + 1 + i = p + (i + 1) := by omega
    rw [hi']
    exact hget (i + 1) (by simpa using hi)
  · rwa [List.length_cons, Nat.add_comm s.length, ← Nat.add_assoc] at hend

theorem CString.congr {m m' : Nat → Char} {p : Nat} {s : Str} (h : CString m p s)
    (hm : ∀ i, p ≤ i → i ≤ p + s.length → m' i = m i) : CString m' p s :=
  ⟨fun i hi => (hm _ (by omega) (by omega)).trans (h.1 i hi), (hm _ (by omega) (by omega)).trans h.2.1, h.2.2⟩

/-- The word that the loop is in: it began at `p`, and its characters are in memory. -/
def Begun (m : Nat → Char) (line : Nat) (p : Nat) (w : Str) : Prop :=
  p + w.length = line ∧ (∀ i (h : i < w.length), m (p + i) = w[i]) ∧ nul ∉ w

theorem Begun.snoc {m : Nat → Char} {line p : Nat} {w s : Str} {c : Char} (h : Begun m line p w)
    (hs : CString m line (c :: s)) :
    Begun m (line + 1) p (w ++ [c]) := by
  obtain ⟨hlen, hget, hn⟩ := h
  refine ⟨by simp; omega, fun i hi => ?_, ?_⟩
  · rcases Nat.lt_or_ge i w.length with hlt | hge
    · rw [List.getElem_append_left hlt, hget i hlt]
    · rw [List.length_append, List.length_singleton] at hi
      obtain rfl : i = w.length := by omega
      rw [List.getElem_append_right (Nat.le_refl _), hlen, hs.cons.1]
      simp
  · rw [List.mem_append, not_or]
    exact ⟨hn, fun hc => hs.2.2 (List.mem_singleton.1 hc ▸ List.mem_cons_self)⟩

/-- A word ends where a NUL comes after it. -/
theorem Begun.ends {m m' : Nat → Char} {line p : Nat} {w : Str} (h : Begun m line p w) (hm : ∀ i < line, m' i = m i)
    (hend : m' line = nul) : CString m' p w := by
  obtain ⟨hlen, hget, hn⟩ := h
  exact ⟨fun i hi => (hm _ (by omega)).trans (hget i hi), hlen ▸ hend, hn⟩

/-! ## The words in the array -/

end Cosign
