import Mathlib.Data.List.Nodup
/-!
# Slots and workers

A list of slots, each with at most one worker, and the workers that have not been
collected. A worker outlives its slot where the list is replaced. `Matched` is
what starting, collecting and replacing keep.
-/

namespace Cosign.Lib

variable {I P : Type}

/-- The slots with the worker each has, the workers with the slot each was started
for, and the slots that were made so far. -/
structure Matched (slots : List (I × Option P)) (workers : List (P × I)) (made : I → Prop) : Prop where
  names : (workers.map (·.1)).Nodup
  ids : (slots.map (·.1)).Nodup
  slotMade : ∀ s ∈ slots, made s.1
  workerMade : ∀ w ∈ workers, made w.2
  /-- The worker of a slot was started for it. -/
  own : ∀ i p, (i, some p) ∈ slots → (p, i) ∈ workers
  /-- A worker of a slot that is there is the one it has. -/
  only : ∀ i p q, (p, i) ∈ workers → (i, q) ∈ slots → q = some p

theorem mem_middle {α : Type} {before after : List α} {x y : α} :
    y ∈ before ++ x :: after ↔ y = x ∨ y ∈ before ++ after := by
  rw [List.mem_append, List.mem_cons, List.mem_append]
  tauto

namespace Matched
variable {slots : List (I × Option P)} {workers : List (P × I)} {made : I → Prop}

theorem worker_inj (h : Matched slots workers made) {p : P} {i j : I} (hi : (p, i) ∈ workers) (hj : (p, j) ∈ workers) :
    i = j := congrArg Prod.snd (List.inj_on_of_nodup_map h.names hi hj rfl)

theorem slot_inj (h : Matched slots workers made) {p : P} {i j : I} (hi : (i, some p) ∈ slots) (hj : (j, some p) ∈ slots) :
    i = j := h.worker_inj (h.own i p hi) (h.own j p hj)

/-- No slot has two workers. -/
theorem one_worker (h : Matched slots workers made) {p q : P} {i : I} {o : Option P} (hs : (i, o) ∈ slots)
    (hp : (p, i) ∈ workers) (hq : (q, i) ∈ workers) : p = q :=
  Option.some.inj ((h.only i p o hp hs).symm.trans (h.only i q o hq hs))

/-- A new list, and all workers are of older slots. -/
theorem replace (h : Matched slots workers made) {slots' : List (I × Option P)} {made' : I → Prop}
    (hids : (slots'.map (·.1)).Nodup) (hempty : ∀ s ∈ slots', s.2 = none) (hnew : ∀ s ∈ slots', ¬ made s.1)
    (hmade' : ∀ s ∈ slots', made' s.1) (hmono : ∀ i, made i → made' i) : Matched slots' workers made' where
  names := h.names
  ids := hids
  slotMade := hmade'
  workerMade w hw := hmono _ (h.workerMade w hw)
  own i p hs := by cases hempty _ hs
  only i p q hw hs := absurd (h.workerMade _ hw) (hnew _ hs)

theorem start {before after : List (I × Option P)} {i : I} {p : P} (h : Matched (before ++ (i, none) :: after) workers made)
    (hp : p ∉ workers.map (·.1)) : Matched (before ++ (i, some p) :: after) (workers ++ [(p, i)]) made := by
  have hids : ((before ++ (i, some p) :: after).map (·.1)).Nodup := by simpa using h.ids
  have hother : ∀ j q, (j, q) ∈ before ++ (i, some p) :: after → (j, q) ∈ before ++ (i, none) :: after ∧ j ≠ i ∨ (j, q) = (i, some p) := by
    intro j q hs
    by_cases hji : j = i
    · subst hji
      exact .inr (List.inj_on_of_nodup_map hids hs (mem_middle.2 (.inl rfl)) rfl)
    · rcases mem_middle.1 hs with hs | hs
      · exact .inr hs
      · exact .inl ⟨mem_middle.2 (.inr hs), hji⟩
  refine ⟨?_, hids, ?_, fun w hw => ?_, fun j q hs => ?_, ?_⟩
  · rw [List.map_append, List.nodup_append]
    refine ⟨h.names, by simp, fun a ha b hb => ?_⟩
    rw [List.map_singleton, List.mem_singleton] at hb
    subst hb
    rintro rfl
    exact hp ha
  · rintro ⟨j, o⟩ hs
    rcases hother j o hs with ⟨hs, -⟩ | hs
    · exact h.slotMade _ hs
    · rw [hs]; exact h.slotMade (i, none) (by simp)
  · rcases List.mem_append.1 hw with hw | hw
    · exact h.workerMade w hw
    · rw [List.mem_singleton.1 hw]; exact h.slotMade (i, none) (by simp)
  · rcases hother j (some q) hs with ⟨hs, -⟩ | hs
    · exact List.mem_append_left _ (h.own j q hs)
    · cases hs; exact List.mem_append_right _ (List.mem_singleton.2 rfl)
  · intro j q o hw hs
    rcases List.mem_append.1 hw with hold | hnew
    · rcases hother j o hs with ⟨hs, -⟩ | hs
      · exact h.only j q o hold hs
      · -- the slot was empty, so it had no worker
        obtain ⟨rfl, rfl⟩ := Prod.mk.inj hs
        cases h.only j q none hold (by simp)
    · obtain ⟨rfl, rfl⟩ := Prod.mk.inj (List.mem_singleton.1 hnew)
      rcases hother j o hs with ⟨-, hne⟩ | hs
      · exact absurd rfl hne
      · exact (Prod.mk.inj hs).2

/-- A worker is collected that no slot has. -/
theorem collect {before after : List (P × I)} {p : P} {i : I} (h : Matched slots (before ++ (p, i) :: after) made)
    (hnone : ∀ s ∈ slots, s.2 ≠ some p) : Matched slots (before ++ after) made := by
  have hsub : (before ++ after).Sublist (before ++ (p, i) :: after) := by simp
  refine ⟨h.names.sublist (hsub.map _), h.ids, h.slotMade, fun w hw => h.workerMade w (hsub.subset hw), fun j q hs => ?_,
    fun j q o hw hs => h.only j q o (hsub.subset hw) hs⟩
  rcases mem_middle.1 (h.own j q hs) with hw | hw
  · cases hw; exact absurd rfl (hnone _ hs)
  · exact hw

/-- A slot goes, and its worker, if it has one, is left. -/
theorem drop {before after : List (I × Option P)} {s : I × Option P} (h : Matched (before ++ s :: after) workers made) :
    Matched (before ++ after) workers made := by
  have hsub : (before ++ after).Sublist (before ++ s :: after) := by simp
  exact ⟨h.names, h.ids.sublist (hsub.map _), fun s hs => h.slotMade s (hsub.subset hs), h.workerMade,
    fun i p hs => h.own i p (hsub.subset hs), fun i p q hw hs => h.only i p q hw (hsub.subset hs)⟩

theorem not_mem_of_split {before after : List (I × Option P)} {i : I} {p : P}
    (h : Matched (before ++ (i, some p) :: after) workers made) : ∀ s ∈ before ++ after, s.2 ≠ some p := by
  rintro ⟨j, o⟩ hs ho
  obtain rfl : o = some p := ho
  obtain rfl : j = i := h.slot_inj (mem_middle.2 (.inr hs)) (mem_middle.2 (.inl rfl))
  have hids := h.ids
  rw [List.map_append, List.map_cons, List.nodup_middle, List.nodup_cons] at hids
  exact hids.1 (by rw [← List.map_append]; exact List.mem_map_of_mem hs)

/-- The worker of a slot is collected, and the slot is empty. -/
theorem collect_own {slotsBefore slotsAfter : List (I × Option P)} {before after : List (P × I)} {p : P} {i j : I}
    (h : Matched (slotsBefore ++ (j, some p) :: slotsAfter) (before ++ (p, i) :: after) made) :
    i = j ∧ Matched (slotsBefore ++ (j, none) :: slotsAfter) (before ++ after) made := by
  have hij : i = j := h.worker_inj (by simp) (h.own j p (by simp))
  subst hij
  have hrest := h.drop.collect h.not_mem_of_split
  have hnames := h.names
  rw [List.map_append, List.map_cons, List.nodup_middle, List.nodup_cons, ← List.map_append] at hnames
  have hids : ((slotsBefore ++ (i, (none : Option P)) :: slotsAfter).map (·.1)).Nodup := by simpa using h.ids
  have hold : ∀ j o, (j, o) ∈ slotsBefore ++ (i, none) :: slotsAfter → (j, o) ∈ slotsBefore ++ slotsAfter ∨ (j, o) = (i, none) := by
    intro j o hs
    exact (mem_middle.1 hs).symm
  refine ⟨rfl, hrest.names, hids, ?_, hrest.workerMade, fun j q hs => ?_, ?_⟩
  · rintro ⟨j, o⟩ hs
    rcases hold j o hs with hs | hs
    · exact hrest.slotMade _ hs
    · rw [hs]; exact h.slotMade (i, some p) (by simp)
  · rcases hold j _ hs with hs | hs
    · exact hrest.own j q hs
    · cases hs
  · intro j q o hw hs
    rcases hold j o hs with hs | hs
    · exact hrest.only j q o hw hs
    · -- another worker of the slot would have been the one it had
      obtain ⟨rfl, rfl⟩ := Prod.mk.inj hs
      have hq := h.only j q (some p) (mem_middle.2 (.inr hw)) (mem_middle.2 (.inl rfl))
      obtain rfl := Option.some.inj hq
      exact absurd (List.mem_map_of_mem hw) hnames.1

end Matched
end Cosign.Lib
