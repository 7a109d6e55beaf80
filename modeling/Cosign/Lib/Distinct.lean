import Mathlib.Data.List.Basic
import Mathlib.Data.List.Induction
import Mathlib.Data.List.Nodup
/-!
# A list without repetitions, in the order of first mention

`distinct l` lists each element of `l` once, where it first occurs. `grown ls`
is what a collector holds that is handed one list after the other and each time
takes what it does not hold yet: the two agree exactly when no list names the
same new element twice.
-/

namespace Cosign.Lib

variable {α : Type} [DecidableEq α]

def addNew (held : List α) (x : α) : List α := if x ∈ held then held else held ++ [x]

def distinct (l : List α) : List α := l.foldl addNew []

/-- The elements of `new` that are not held, behind those that are. -/
def grow (held new : List α) : List α := held ++ new.filter (· ∉ held)

def grown (ls : List (List α)) : List α := ls.foldl grow []

/-- No list names twice an element that no list before it named. -/
def NoRepeat (ls : List (List α)) : Prop :=
  ∀ pre l post, ls = pre ++ l :: post → (l.filter fun x => ∀ m ∈ pre, x ∉ m).Nodup

/-! ## One by one -/

theorem nodup_foldl_addNew (l held : List α) (h : held.Nodup) : (l.foldl addNew held).Nodup := by
  induction l generalizing held with
  | nil => exact h
  | cons x l ih =>
    rw [List.foldl_cons]
    apply ih
    unfold addNew
    split
    · exact h
    · rename_i hx
      exact List.Nodup.append h (List.nodup_singleton _) (by simpa using hx)

theorem distinct_nodup (l : List α) : (distinct l).Nodup := nodup_foldl_addNew l [] List.nodup_nil

theorem distinct_append (l m : List α) : distinct (l ++ m) = m.foldl addNew (distinct l) := List.foldl_append ..

/-- Taking what is new at once is taking it one by one, if nothing new comes
twice. -/
theorem foldl_addNew (new held : List α) (h : (new.filter (· ∉ held)).Nodup) :
    new.foldl addNew held = grow held new := by
  induction new generalizing held with
  | nil => simp [grow]
  | cons x new ih =>
    rw [List.foldl_cons, addNew]
    split
    · rename_i hx
      have hf : (x :: new).filter (· ∉ held) = new.filter (· ∉ held) := by simp [hx]
      rw [hf] at h
      rw [ih held h, grow, grow, hf]
    · rename_i hx
      have hf : (x :: new).filter (· ∉ held) = x :: new.filter (· ∉ held) := by simp [hx]
      rw [hf, List.nodup_cons] at h
      -- `x` does not come again, so it makes no difference that it is held now
      have hsame : new.filter (· ∉ held ++ [x]) = new.filter (· ∉ held) := by
        refine List.filter_congr ?_
        intro y hy
        have hne : y ∉ held → y ≠ x := by
          rintro hyh rfl
          exact h.1 (List.mem_filter.2 ⟨hy, by simpa using hyh⟩)
        by_cases hyh : y ∈ held <;> simp [hyh, hne]
      rw [ih _ (by rw [hsame]; exact h.2), grow, grow, hsame, hf]
      simp

/-! ## List by list -/

theorem grown_concat (ls : List (List α)) (l : List α) : grown (ls ++ [l]) = grow (grown ls) l := by
  rw [grown, List.foldl_append]
  rfl

theorem mem_grown {ls : List (List α)} {x : α} : x ∈ grown ls ↔ ∃ l ∈ ls, x ∈ l := by
  induction ls using List.reverseRecOn with
  | nil => simp [grown]
  | append_singleton ls l ih =>
    rw [grown_concat, grow, List.mem_append, List.mem_filter]
    constructor
    · rintro (hg | ⟨hl, -⟩)
      · obtain ⟨m, hm, hx⟩ := ih.1 hg
        exact ⟨m, List.mem_append_left _ hm, hx⟩
      · exact ⟨l, by simp, hl⟩
    · rintro ⟨m, hm, hx⟩
      by_cases hg : x ∈ grown ls
      · exact .inl hg
      rcases List.mem_append.1 hm with hm | hm
      · exact .inl (ih.2 ⟨m, hm, hx⟩)
      · exact .inr ⟨List.mem_singleton.1 hm ▸ hx, by simpa using hg⟩

theorem noRepeat_concat (ls : List (List α)) (l : List α) :
    NoRepeat (ls ++ [l]) ↔ NoRepeat ls ∧ (l.filter (· ∉ grown ls)).Nodup := by
  have hnew : l.filter (· ∉ grown ls) = l.filter fun x => ∀ m ∈ ls, x ∉ m := by
    refine List.filter_congr ?_
    intro x _
    simp [mem_grown]
  rw [hnew]
  constructor
  · intro h
    refine ⟨?_, h ls l [] rfl⟩
    rintro pre m post rfl
    exact h pre m (post ++ [l]) (by simp)
  · rintro ⟨hls, hl⟩ pre m post he
    rcases List.eq_nil_or_concat post with rfl | ⟨post, k, rfl⟩
    · obtain ⟨rfl, hlm⟩ := List.append_inj' he rfl
      cases hlm
      exact hl
    · have he' : ls ++ [l] = (pre ++ m :: post) ++ [k] := by simpa using he
      exact hls pre m post (List.append_inj' he' rfl).1

theorem grown_nodup (ls : List (List α)) : (grown ls).Nodup ↔ NoRepeat ls := by
  induction ls using List.reverseRecOn with
  | nil => simp [grown, NoRepeat]
  | append_singleton ls l ih =>
    rw [grown_concat, grow, noRepeat_concat, ← ih, List.nodup_append']
    constructor
    · rintro ⟨hg, hl, -⟩
      exact ⟨hg, hl⟩
    · rintro ⟨hg, hl⟩
      refine ⟨hg, hl, ?_⟩
      intro x hx hxl
      simpa [hx] using (List.mem_filter.1 hxl).2

/-- The collector holds each element once, where it was first named, if and only
if no list names a new one twice. -/
theorem grown_eq_distinct (ls : List (List α)) : grown ls = distinct ls.flatten ↔ NoRepeat ls := by
  constructor
  · intro h
    rw [← grown_nodup, h]
    exact distinct_nodup _
  · induction ls using List.reverseRecOn with
    | nil => exact fun _ => rfl
    | append_singleton ls l ih =>
      intro h
      obtain ⟨hls, hl⟩ := (noRepeat_concat ls l).1 h
      rw [grown_concat, List.flatten_append, distinct_append, ← ih hls, List.flatten_singleton, foldl_addNew _ _ hl]

end Cosign.Lib
