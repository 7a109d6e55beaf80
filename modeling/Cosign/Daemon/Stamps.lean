import Cosign.Daemon.Time
import Cosign.Lib.Latest
/-!
# Times that merge

`f_time` sets the time of a file only forward, so the lines of a `TIME` act as a
maximum whatever their order. Two things come between what is sent and what is
taken. The tokenizer has cut the line at its first blank when it is compared
with the end mark, and `atoi` keeps 32 bits of the time.
-/

namespace Cosign

open Lib

/-- The time of a line for the file `p`: 0 where it names another. -/
def stampFor (cfg : Config) (read : Str → Nat) (p line : Str) : Nat :=
  match timeNamed cfg line with
  | some (path, timestamp, _) => if resolve p = resolve path then read timestamp else 0
  | none => 0

/-- The time as it was sent. -/
def sentFor (cfg : Config) : (p line : Str) → Nat := stampFor cfg digits

/-- The time as it is taken. -/
def takenFor (cfg : Config) : (p line : Str) → Nat := stampFor cfg fun timestamp => (atoi timestamp).toNat

/-- Every line that names a cookie has a decimal time and state 1. -/
def Formed (cfg : Config) (lines : List Str) : Prop :=
  ∀ line ∈ lines, ∀ path timestamp state, timeNamed cfg line = some (path, timestamp, state) →
    (∀ c ∈ timestamp, c.isDigit = true) ∧ atoi state = 1

/-- Every file is there as it was, with the latest of its own time and its
`stamps`. -/
def Advances (stamps : Str → List Nat) (s t : Store) : Prop :=
  ∀ p, t.get p = (s.get p).map fun f => { f with mtime := latest f.mtime (stamps p) }

theorem Advances.refl (s : Store) : Advances (fun _ => []) s s := fun p => by cases s.get p <;> rfl

theorem Advances.trans {m m' : Str → List Nat} {s t u : Store} (h : Advances m s t) (h' : Advances m' t u) :
    Advances (fun p => m p ++ m' p) s u := by
  intro p
  rw [h', h]
  cases s.get p with
  | none => rfl
  | some f => simp [latest_append]

theorem Advances.sameMarks {m : Str → List Nat} {s t : Store} (h : Advances m s t) : SameMarks s t := by
  intro p
  rw [h]
  cases s.get p <;> rfl

/-! ## One line -/

theorem timeCookie_advances (env : Env) (i : Nat) (path timestamp state : Str) (s : Store) (hone : atoi state = 1) :
    ∃ t, Prog.run exec (timeCookie env i path timestamp state) s = some ((), t) ∧
      Advances (fun p => [if resolve p = resolve path then (atoi timestamp).toNat else 0]) s t := by
  -- only state 0 asks for a logout
  have hlogout : ∀ f, timeLogout env i path state f = pure 0 := by
    intro f
    unfold timeLogout
    rw [if_neg]
    rintro ⟨h0, -⟩
    omega
  cases hf : s.get path with
  | none =>
    refine ⟨s, by simp [timeCookie, hf], fun p => ?_⟩
    by_cases hp : resolve p = resolve path
    · rw [get_congr hp, hf]; rfl
    · cases s.get p <;> simp [hp]
  | some f =>
    by_cases hlt : atoi timestamp > f.mtime
    · refine ⟨(exec (.utime path (atoi timestamp).toNat) s).2, ?_, fun p => ?_⟩
      · simp [timeCookie, hf, timeUtime, hlt, hlogout]
      · simp only [exec, hf]
        by_cases hp : resolve p = resolve path
        · rw [get_congr hp, Store.put_get, get_congr hp, hf]
          have : max (atoi timestamp).toNat f.mtime = (atoi timestamp).toNat := by omega
          simp [hp, this]
        · rw [Store.put_get_ne _ hp]
          cases s.get p <;> simp [hp]
    · refine ⟨s, ?_, fun p => ?_⟩
      · simp [timeCookie, hf, timeUtime, hlt, hlogout]
      · by_cases hp : resolve p = resolve path
        · rw [get_congr hp, hf]
          have : max (atoi timestamp).toNat f.mtime = f.mtime := by omega
          simp [hp, this]
        · cases s.get p <;> simp [hp]

/-! ## One command -/

theorem timeRead_end {line : Str} (h : lineLeft line = ".".toList) (rest : List Str) : timeRead (line :: rest) = [] := by
  unfold timeRead
  rw [List.takeWhile_cons_of_neg]
  simpa using h

theorem timeRead_cons {line : Str} (h : lineLeft line ≠ ".".toList) (rest : List Str) :
    timeRead (line :: rest) = line :: timeRead rest := by
  unfold timeRead
  rw [List.takeWhile_cons_of_pos]
  exact decide_eq_true h

theorem timeLines_advances (cfg : Config) (env : Env) (lines : List Str) (i : Nat) (s : Store)
    (hform : Formed cfg (timeRead lines)) : ∃ t, Prog.run exec (timeLines cfg env i lines) s = some ((), t) ∧
      Advances (fun p => (timeRead lines).map (takenFor cfg p)) s t := by
  induction lines generalizing i s with
  | nil => exact ⟨s, rfl, Advances.refl s⟩
  | cons line rest ih =>
    by_cases hend : lineLeft line = ".".toList
    · rw [timeRead_end hend, timeLines, if_pos hend]
      exact ⟨s, rfl, Advances.refl s⟩
    rw [timeRead_cons hend] at hform ⊢
    rw [timeLines_cons cfg env i hend]
    have hrest : Formed cfg (timeRead rest) := fun l hl => hform l (List.mem_cons_of_mem _ hl)
    cases hnamed : timeNamed cfg line with
    | none =>
      -- a time of 0 is no later than any
      obtain ⟨t, ht, hst⟩ := ih (i + 1) s hrest
      refine ⟨t, ht, fun p => ?_⟩
      have hzero : takenFor cfg p line = 0 := by simp [takenFor, stampFor, hnamed]
      rw [hst]
      cases s.get p <;> simp [hzero]
    | some x =>
      obtain ⟨path, timestamp, state⟩ := x
      have hone := (hform line List.mem_cons_self path timestamp state hnamed).2
      obtain ⟨u, hu, hsu⟩ := timeCookie_advances env i path timestamp state s hone
      obtain ⟨t, ht, hut⟩ := ih (i + 1) u hrest
      refine ⟨t, ?_, fun p => ?_⟩
      · dsimp only
        rw [Prog.run_bind, hu]
        exact ht
      · have htaken : takenFor cfg p line = if resolve p = resolve path then (atoi timestamp).toNat else 0 := by
          simp only [takenFor, stampFor, hnamed]
        rw [(hsu.trans hut) p]
        simp only [List.map_cons, htaken, List.singleton_append]

theorem fTime_advances {cfg : Config} {ses : Session} {env : Env} {av : List Str} {s t : Store} {d : Done}
    (h : Prog.run exec (fTime cfg ses env av) s = some (d, t)) (hd : d.answers 260)
    (hform : Formed cfg (timeRead env.lines)) :
    Advances (fun p => (timeRead env.lines).map (takenFor cfg p)) s t := by
  unfold fTime at h
  split at h
  · cases h
    simp [Done.answers, Reply.code?] at hd
  · split at h
    · cases h
      simp [Done.answers, Reply.code?] at hd
    · obtain ⟨u, hu, hsu⟩ := timeLines_advances cfg env env.lines 0 s hform
      rw [Prog.run_bind, hu] at h
      cases h
      exact hsu

/-! ## Commands one after the other -/

/-- `TIME`s, each answered 260, with the lines before the end mark of each. -/
inductive Times (cfg : Config) : Store → List (List Str) → Store → Prop
  | nil (s : Store) : Times cfg s [] s
  | cons {ses : Session} {env : Env} {av : List Str} {s u t : Store} {d : Done} {body more : List Str}
      {bodies : List (List Str)} (hlines : env.lines = body ++ ".".toList :: more)
      (hrun : Prog.run exec (fTime cfg ses env av) s = some (d, u)) (hd : d.answers 260)
      (rest : Times cfg u bodies t) : Times cfg s (body :: bodies) t

/-- The lines that are sent. -/
def linesSent (bodies : List (List Str)) : List Str := bodies.flatten

/-- The lines that are taken. -/
def linesTaken (bodies : List (List Str)) : List Str := bodies.flatMap timeRead

theorem timeRead_body (body more : List Str) : timeRead (body ++ ".".toList :: more) = timeRead body := by
  induction body with
  | nil => exact timeRead_end rfl more
  | cons line rest ih =>
    -- a line that is cut to the end mark ends both
    rw [List.cons_append]
    by_cases hend : lineLeft line = ".".toList
    · rw [timeRead_end hend, timeRead_end hend]
    · rw [timeRead_cons hend, timeRead_cons hend, ih]

theorem timeRead_subset (lines : List Str) : timeRead lines ⊆ lines := (List.takeWhile_prefix _).subset

theorem Times.advances {cfg : Config} {s t : Store} {bodies : List (List Str)} (h : Times cfg s bodies t)
    (hform : Formed cfg (linesSent bodies)) :
    Advances (fun p => (linesTaken bodies).map (takenFor cfg p)) s t := by
  induction h with
  | nil s => exact Advances.refl s
  | @cons ses env av s u t d body more bodies hlines hrun hd rest ih =>
    have hread : timeRead env.lines = timeRead body := by rw [hlines, timeRead_body]
    have hone : Formed cfg (timeRead env.lines) := by
      intro l hl
      rw [hread] at hl
      exact hform l (List.mem_append_left _ (timeRead_subset body hl))
    have hsu := fTime_advances hrun hd hone
    have hut := ih fun l hl => hform l (List.mem_append_right _ hl)
    rw [hread] at hsu
    intro p
    rw [(hsu.trans hut) p]
    simp [linesTaken]

/-! ## What is sent and what is taken -/

/-- Every file has the latest of its own time and of the times sent for it. -/
def TimesMerge (cfg : Config) (bodies : List (List Str)) (s t : Store) : Prop :=
  Advances (fun p => (linesSent bodies).map (sentFor cfg p)) s t

/-- Every time sent for a file is no later than its own or than one that is
taken for it. -/
def Covered (cfg : Config) (bodies : List (List Str)) (s : Store) : Prop :=
  ∀ p f, s.get p = some f → ∀ line ∈ linesSent bodies,
    sentFor cfg p line ≤ f.mtime ∨ ∃ l ∈ linesTaken bodies, sentFor cfg p line ≤ takenFor cfg p l

theorem atoi_le_digits {s : Str} (h : ∀ c ∈ s, c.isDigit = true) : (atoi s).toNat ≤ digits s := by
  by_cases hne : s = []
  · subst hne
    decide
  rw [atoi, strtol_of_digits hne h]
  have := bmod_le (min (2 ^ 63 - 1) (digits s : Int)) (by omega)
  omega

theorem atoi_eq_digits {s : Str} (h : ∀ c ∈ s, c.isDigit = true) (hlt : digits s < 2 ^ 31) :
    (atoi s).toNat = digits s := by
  by_cases hne : s = []
  · subst hne
    decide
  rw [atoi, strtol_of_digits hne h, show min (2 ^ 63 - 1) (digits s : Int) = digits s by omega,
    Int.bmod_eq_of_le (by omega) (by omega)]
  omega

theorem taken_le_sent {cfg : Config} {lines : List Str} (hform : Formed cfg lines) (p : Str) {line : Str}
    (h : line ∈ lines) : takenFor cfg p line ≤ sentFor cfg p line := by
  unfold takenFor sentFor stampFor
  split
  · rename_i path timestamp state hnamed
    split
    · exact atoi_le_digits (hform line h path timestamp state hnamed).1
    · exact le_refl 0
  · exact le_refl 0

theorem taken_eq_sent {cfg : Config} {lines : List Str} (hform : Formed cfg lines) {p line : Str} (h : line ∈ lines)
    (hlt : sentFor cfg p line < 2 ^ 31) : takenFor cfg p line = sentFor cfg p line := by
  revert hlt
  unfold takenFor sentFor stampFor
  split
  · rename_i path timestamp state hnamed
    split
    · exact atoi_eq_digits (hform line h path timestamp state hnamed).1
    · exact fun _ => rfl
  · exact fun _ => rfl

theorem linesTaken_subset (bodies : List (List Str)) : linesTaken bodies ⊆ linesSent bodies := by
  intro l hl
  obtain ⟨body, hbody, hl⟩ := List.mem_flatMap.1 hl
  exact List.mem_flatten.2 ⟨body, hbody, timeRead_subset body hl⟩

theorem taken_le_latest {cfg : Config} {bodies : List (List Str)} (hform : Formed cfg (linesSent bodies)) (p : Str)
    (m : Nat) : latest m ((linesTaken bodies).map (takenFor cfg p)) ≤ latest m ((linesSent bodies).map (sentFor cfg p)) := by
  refine latest_le_latest.2 fun x hx => .inr ?_
  obtain ⟨l, hl, rfl⟩ := List.mem_map.1 hx
  exact ⟨_, List.mem_map_of_mem (linesTaken_subset bodies hl), taken_le_sent hform p (linesTaken_subset bodies hl)⟩

theorem covered_iff {cfg : Config} {bodies : List (List Str)} {s : Store} (hform : Formed cfg (linesSent bodies)) :
    Covered cfg bodies s ↔
    ∀ p f, s.get p = some f → latest f.mtime ((linesSent bodies).map (sentFor cfg p)) =
      latest f.mtime ((linesTaken bodies).map (takenFor cfg p)) := by
  refine forall_congr' fun p => forall_congr' fun f => imp_congr_right fun _ => ?_
  constructor
  · intro h
    refine le_antisymm (latest_le_latest.2 fun x hx => ?_) (taken_le_latest hform p f.mtime)
    obtain ⟨line, hline, rfl⟩ := List.mem_map.1 hx
    refine (h line hline).imp_right ?_
    rintro ⟨l, hl, hle⟩
    exact ⟨_, List.mem_map_of_mem hl, hle⟩
  · intro h line hline
    refine (latest_le_latest.1 h.le _ (List.mem_map_of_mem hline)).imp_right ?_
    rintro ⟨y, hy, hle⟩
    obtain ⟨l, hl, rfl⟩ := List.mem_map.1 hy
    exact ⟨l, hl, hle⟩

/-- Whole lines and times of 31 bits are all taken. -/
theorem covered_of_plain {cfg : Config} {bodies : List (List Str)} (hform : Formed cfg (linesSent bodies)) (s : Store)
    (hwhole : ∀ line ∈ linesSent bodies, lineLeft line ≠ ".".toList)
    (htime : ∀ line ∈ linesSent bodies, ∀ p, sentFor cfg p line < 2 ^ 31) : Covered cfg bodies s := by
  intro p f _ line hline
  refine .inr ⟨line, ?_, (taken_eq_sent hform hline (htime line hline p)).ge⟩
  obtain ⟨body, hbody, hl⟩ := List.mem_flatten.1 hline
  have hall : timeRead body = body := by
    refine List.takeWhile_eq_self_iff.2 fun l hl => decide_eq_true ?_
    exact hwhole l (List.mem_flatten.2 ⟨body, hbody, hl⟩)
  exact List.mem_flatMap.2 ⟨body, hbody, by rwa [hall]⟩

theorem Times.merge_iff {cfg : Config} {s t : Store} {bodies : List (List Str)} (h : Times cfg s bodies t)
    (hform : Formed cfg (linesSent bodies)) : TimesMerge cfg bodies s t ↔ Covered cfg bodies s := by
  have hadv := h.advances hform
  rw [covered_iff hform]
  constructor
  · intro hm p f hf
    have h1 := hm p
    rw [hadv p, hf] at h1
    simpa using (congrArg (fun o => o.map File.mtime) h1).symm
  · intro hc p
    rw [hadv p]
    cases hf : s.get p with
    | none => rfl
    | some f => simp [hc p f hf]

/-- The times of `TIME` merge just when what is sent is covered. In any case
nothing but times changes, and none goes back. -/
theorem times_merge_iff {cfg : Config} {s t : Store} {bodies : List (List Str)} (h : Times cfg s bodies t)
    (hform : Formed cfg (linesSent bodies)) :
    (TimesMerge cfg bodies s t ↔ Covered cfg bodies s) ∧ SameMarks s t ∧
    (∀ p f g, s.get p = some f → t.get p = some g → f.mtime ≤ g.mtime) ∧
    ∀ bodies' t', Times cfg s bodies' t' → (∀ line, line ∈ linesSent bodies' ↔ line ∈ linesSent bodies) →
      Covered cfg bodies s → Covered cfg bodies' s → ∀ p, t'.get p = t.get p := by
  have hadv := h.advances hform
  refine ⟨h.merge_iff hform, hadv.sameMarks, fun p f g hf hg => ?_, ?_⟩
  · have hp := hadv p
    rw [hf, hg] at hp
    cases hp
    exact le_latest_self _ _
  · intro bodies' t' h' hsame hc hc' p
    have hm := (h.merge_iff hform).2 hc
    have hm' := (h'.merge_iff fun l hl => hform l ((hsame l).1 hl)).2 hc'
    rw [hm p, hm' p]
    cases s.get p with
    | none => rfl
    | some f =>
      have hlatest : latest f.mtime ((linesSent bodies').map (sentFor cfg p)) =
          latest f.mtime ((linesSent bodies).map (sentFor cfg p)) := by
        apply latest_congr
        intro x
        simp only [List.mem_map, hsame]
      simp [hlatest]

/-! ## One cookie -/

def annStamp : Str := "cosign=abc 200 1".toList
def midStamp : Str := "cosign=abc 250 1".toList
def lateStamp : Str := "cosign=abc 300 1".toList

/-- A line that is cut to the end mark. -/
def junkLine : Str := ". junk".toList

def stampEnv (body : List Str) : Env := { Env.calm 200 with lines := body ++ [".".toList] }

/-- The lines that are sent here, and the times in them. -/
theorem stamp_named {line : Str} (h : line ∈ [annStamp, midStamp, lateStamp, junkLine]) :
    timeNamed .default line = none ∨ ∃ timestamp, timeNamed .default line = some ("cosign=abc".toList, timestamp, "1".toList) ∧
      timestamp.all Char.isDigit = true ∧ digits timestamp < 2 ^ 31 := by
  simp only [List.mem_cons, List.not_mem_nil, or_false] at h
  rcases h with rfl | rfl | rfl | rfl
  · exact .inr ⟨"200".toList, rfl, rfl, by decide⟩
  · exact .inr ⟨"250".toList, rfl, rfl, by decide⟩
  · exact .inr ⟨"300".toList, rfl, rfl, by decide⟩
  · exact .inl rfl

theorem stamp_formed (lines : List Str) (h : ∀ line ∈ lines, line ∈ [annStamp, midStamp, lateStamp, junkLine]) :
    Formed .default lines := by
  intro line hline path timestamp state hnamed
  rcases stamp_named (h line hline) with hnone | ⟨timestamp', hsome, hdigits, -⟩
  · rw [hnone] at hnamed
    cases hnamed
  · rw [hsome] at hnamed
    cases hnamed
    exact ⟨List.all_eq_true.1 hdigits, rfl⟩

theorem stamp_sent {line : Str} (h : line ∈ [annStamp, midStamp, lateStamp, junkLine]) (p : Str) :
    sentFor .default p line < 2 ^ 31 := by
  unfold sentFor stampFor
  rcases stamp_named h with hnone | ⟨timestamp, hsome, -, htime⟩
  · rw [hnone]
    exact Nat.two_pow_pos 31
  · rw [hsome]
    dsimp only
    split
    · exact htime
    · exact Nat.two_pow_pos 31

/-- The lines after it are not read, so the cookie keeps its old time. -/
theorem times_lost : ¬ ∀ (cfg : Config) (s t : Store) (bodies : List (List Str)), Times cfg s bodies t →
    Formed cfg (linesSent bodies) → TimesMerge cfg bodies s t := by
  intro h
  have hrun : Prog.run exec (fTime .default .cgi (stampEnv [junkLine, annStamp]) ["TIME".toList]) (oneCookie false) =
      some (timeDone, oneCookie false) := rfl
  have htimes : Times .default (oneCookie false) [[junkLine, annStamp]] (oneCookie false) :=
    .cons rfl hrun (by decide) (.nil _)
  have hmerge := h _ _ _ _ htimes (stamp_formed _ (by simp [linesSent])) "cosign=abc".toList
  have htime : some 100 = some 200 := congrArg (fun file => file.map File.mtime) hmerge
  cases htime

theorem stamps_taken : ∃ u t t',
    Prog.run exec (fTime .default .cgi (stampEnv [lateStamp, annStamp]) ["TIME".toList]) (oneCookie false) =
      some (timeDone, u) ∧
    Prog.run exec (fTime .default .cgi (stampEnv [midStamp]) ["TIME".toList]) u = some (timeDone, t) ∧
    Prog.run exec (fTime .default .cgi (stampEnv [annStamp, lateStamp, midStamp, lateStamp]) ["TIME".toList])
      (oneCookie false) = some (timeDone, t') := ⟨_, _, _, rfl, rfl, rfl⟩

/-- Two commands with three lines, and one with the same lines in another order and
one of them twice. -/
theorem times_merge_ann : ∃ t t', Times .default (oneCookie false) [[lateStamp, annStamp], [midStamp]] t ∧
    TimesMerge .default [[lateStamp, annStamp], [midStamp]] (oneCookie false) t ∧
    Times .default (oneCookie false) [[annStamp, lateStamp, midStamp, lateStamp]] t' ∧ ∀ p, t'.get p = t.get p := by
  obtain ⟨u, t, t', h₁, h₂, h'⟩ := stamps_taken
  have htimes : Times .default (oneCookie false) [[lateStamp, annStamp], [midStamp]] t :=
    .cons rfl h₁ (by decide) (.cons rfl h₂ (by decide) (.nil _))
  have htimes' : Times .default (oneCookie false) [[annStamp, lateStamp, midStamp, lateStamp]] t' :=
    .cons rfl h' (by decide) (.nil _)
  have hcovered : ∀ bodies : List (List Str), (∀ line ∈ linesSent bodies, line ∈ [annStamp, midStamp, lateStamp]) →
      Covered .default bodies (oneCookie false) := by
    intro bodies hlines
    have hmem : ∀ line ∈ linesSent bodies, line ∈ [annStamp, midStamp, lateStamp, junkLine] := fun line hline =>
      List.mem_append_left [junkLine] (hlines line hline)
    refine covered_of_plain (stamp_formed _ hmem) _ (fun line hline => ?_) fun line hline => stamp_sent (hmem line hline)
    have hline := hlines line hline
    simp only [List.mem_cons, List.not_mem_nil, or_false] at hline
    rcases hline with rfl | rfl | rfl <;> decide
  have hform : Formed .default (linesSent [[lateStamp, annStamp], [midStamp]]) := stamp_formed _ (by simp [linesSent])
  obtain ⟨hmerge, -, -, horder⟩ := times_merge_iff htimes hform
  have hall := hcovered [[lateStamp, annStamp], [midStamp]] (by simp [linesSent])
  refine ⟨t, t', htimes, hmerge.2 hall, htimes', horder _ t' htimes' (fun line => ?_) hall (hcovered _ (by simp [linesSent]))⟩
  simp only [linesSent, List.flatten_cons, List.flatten_nil, List.append_nil, List.cons_append, List.nil_append,
    List.mem_cons, List.not_mem_nil, or_false]
  generalize (line = annStamp) = a, (line = midStamp) = b, (line = lateStamp) = c
  tauto

end Cosign
