import Cosign.Common.Readconf
/-!
# Reading the configuration again

A line that changes a setting in place stays when the file is rejected, and is
there when the file is read again. `taken` lists the settings that a run of
`read_config` makes, in order: what is left of a rejected file is these, and an
accepted file can be read again exactly when there are none.
-/

namespace Cosign

/-! ## What a run sets -/

def takenLines (files : Files) (fds : Nat) (incl : Str → Lists → Settings → Loaded)
    (inclTaken : Str → Lists → Settings → List Setting) : (insert : Bool) → List Str → Lists → Settings → List Setting
  | _, [], _, _ => []
  | insert, line :: rest, new, g =>
    match acavParse line with
    | [] => takenLines files fds incl inclTaken insert rest new g
    | word :: args =>
      if word.head? = some '#' then takenLines files fds incl inclTaken insert rest new g
      else if word = "include".toList then
        match args with
        | [path] =>
          match incl path new g with
          | .ok new' g' => inclTaken path new g ++ takenLines files fds incl inclTaken insert rest new' g'
          | _ => inclTaken path new g
        | _ => takenLines files fds incl inclTaken insert rest new g
      else match parseSetting word args with
        | some (.ok s) =>
          match g.set s with
          | some g => s :: takenLines files fds incl inclTaken insert rest new g
          | none => []
        | some _ => []
        | none =>
          match readListing files fds insert new word args with
          | .ok (insert, new) => takenLines files fds incl inclTaken insert rest new g
          | _ => []

/-- The settings made before the end of the file, or before the line that fails. -/
def taken (files : Files) : (fds : Nat) → (path : Str) → Lists → Settings → List Setting
  | 0, _, _, _ => []
  | fds + 1, path, new, g =>
    match files path with
    | none => []
    | some lines => takenLines files fds (readConfig files fds) (taken files fds) true lines new g

def Settings.setAll (g : Settings) : List Setting → Option Settings
  | [] => some g
  | s :: ss => (g.set s).bind fun g => g.setAll ss

theorem setAll_append (g : Settings) (ss ts : List Setting) :
    g.setAll (ss ++ ts) = (g.setAll ss).bind fun g => g.setAll ts := by
  induction ss generalizing g with
  | nil => rfl
  | cons s ss ih =>
    rw [List.cons_append, Settings.setAll, Settings.setAll, Option.bind_assoc]
    exact congrArg _ (funext fun g => ih g)

/-- Whether it ends well or not, a run leaves these settings. -/
def Loaded.Leaves (P : Settings → Prop) : Loaded → Prop
  | .ok _ g => P g
  | .failed g => P g
  | .fault => True

theorem configLines_taken {files : Files} {fds : Nat} {incl : Str → Lists → Settings → Loaded}
    {inclTaken : Str → Lists → Settings → List Setting}
    (hincl : ∀ path new g, (incl path new g).Leaves fun g' => g.setAll (inclTaken path new g) = some g')
    (lines : List Str) (insert : Bool) (new : Lists) (g : Settings) :
    (configLines files fds incl insert lines new g).Leaves fun g' =>
      g.setAll (takenLines files fds incl inclTaken insert lines new g) = some g' := by
  induction lines generalizing insert new g with
  | nil => rfl
  | cons line rest ih =>
    rw [configLines, takenLines]
    cases hline : acavParse line with
    | nil => exact ih ..
    | cons word args =>
      dsimp only
      by_cases hhash : word.head? = some '#'
      · rw [if_pos hhash, if_pos hhash]
        exact ih ..
      rw [if_neg hhash, if_neg hhash]
      by_cases hinc : word = "include".toList
      · rw [if_pos hinc, if_pos hinc]
        match args with
        | [path] =>
          -- the included file's settings come first, then the rest of this one's
          have hsub := hincl path new g
          dsimp only
          cases hr : incl path new g with
          | ok new' g' =>
            rw [hr] at hsub
            have hsub : g.setAll (inclTaken path new g) = some g' := hsub
            have hrest := ih insert new' g'
            simp only [setAll_append, hsub, Option.bind_some]
            exact hrest
          | failed g' =>
            rw [hr] at hsub
            exact hsub
          | fault => trivial
        | [] => exact ih ..
        | _ :: _ :: _ => exact ih ..
      · rw [if_neg hinc, if_neg hinc]
        cases hs : parseSetting word args with
        | some r =>
          cases r with
          | ok s =>
            cases hg : g.set s with
            | some g' =>
              have hrest := ih insert new g'
              simp only [Settings.setAll, hg, Option.bind_some]
              exact hrest
            | none =>
              simp only [hg]
              exact rfl
          | failed => exact rfl
          | fault => exact trivial
        | none =>
          cases hl : readListing files fds insert new word args with
          | ok x => exact ih ..
          | failed => exact rfl
          | fault => exact trivial

theorem readConfig_taken (files : Files) (fds : Nat) (path : Str) (new : Lists) (g : Settings) :
    (readConfig files fds path new g).Leaves fun g' => g.setAll (taken files fds path new g) = some g' := by
  induction fds generalizing path new g with
  | zero => rfl
  | succ fds ih =>
    rw [readConfig, taken]
    cases files path with
    | none => exact rfl
    | some lines => exact configLines_taken ih ..

/-! ## How settings grow -/

def Settings.size (g : Settings) : Nat :=
  g.certlist.length + g.negotiatemap.toList.length + g.authenticatorlist.length + g.factorlist.length +
    g.suffix.toList.length

theorem set_size {g g' : Settings} {s : Setting} (h : g.set s = some g') : g'.size = g.size + 1 := by
  cases s with
  | cert ml => cases h; simp [Settings.size]; omega
  | passwd ml => cases h; simp [Settings.size]; omega
  | factor fl => cases h; simp [Settings.size]; omega
  | negotiate ml =>
    rw [Settings.set] at h
    split at h
    · rename_i hnone
      cases h
      simp [Settings.size, hnone]
      omega
    · cases h
  | suffix x =>
    rw [Settings.set] at h
    split at h
    · rename_i hnone
      cases h
      simp [Settings.size, hnone]
    · cases h

theorem setAll_size {g g' : Settings} {ss : List Setting} (h : g.setAll ss = some g') :
    g'.size = g.size + ss.length := by
  induction ss generalizing g with
  | nil => cases h; rfl
  | cons s ss ih =>
    obtain ⟨g1, hs, hss⟩ := Option.bind_eq_some_iff.1 h
    rw [ih hss, set_size hs, List.length_cons]
    omega

theorem setAll_self {g : Settings} {ss : List Setting} (h : g.setAll ss = some g) : ss = [] := by
  have := setAll_size h
  exact List.eq_nil_of_length_eq_zero (by omega)

/-! ## The lines of a file -/

def settingKeywords : List Str :=
  ["cert".toList, "negotiate".toList, "passwd".toList, "factor".toList, "suffix".toList]

theorem parseSetting_eq_none {word : Str} {args : List Str} : parseSetting word args = none ↔ word ∉ settingKeywords := by
  unfold parseSetting settingKeywords
  by_cases h1 : word = "cert".toList
  · simp [h1]
  by_cases h2 : word = "negotiate".toList
  · simp [h2]
  by_cases h3 : word = "passwd".toList
  · simp [h3]
  by_cases h4 : word = "factor".toList
  · simp [h4]
  by_cases h5 : word = "suffix".toList
  · simp [h5]
  · rw [if_neg h1, if_neg h2, if_neg h3, if_neg h4, if_neg h5]
    refine iff_of_true rfl ?_
    simp only [List.mem_cons, List.not_mem_nil, or_false, not_or]
    exact ⟨h1, h2, h3, h4, h5⟩

/-- A line with this first word is in the file, or in one it includes. -/
inductive ReadsLine (files : Files) : (path word : Str) → Prop where
  | here {path word line : Str} {lines args : List Str} (h : files path = some lines) (hline : line ∈ lines)
      (hword : acavParse line = word :: args) : ReadsLine files path word
  | incl {path sub word line : Str} {lines : List Str} (h : files path = some lines) (hline : line ∈ lines)
      (hsub : acavParse line = ["include".toList, sub]) (hr : ReadsLine files sub word) : ReadsLine files path word

/-- The line itself sets nothing, and no file it includes does. -/
def SetsNothing (files : Files) (line : Str) : Prop :=
  ∀ word args, acavParse line = word :: args → word ∉ settingKeywords ∧
    ∀ sub, word = "include".toList → args = [sub] → ∀ w, ReadsLine files sub w → w ∉ settingKeywords

theorem readsLine_iff {files : Files} {path : Str} {lines : List Str} (h : files path = some lines) :
    (∀ w, ReadsLine files path w → w ∉ settingKeywords) ↔ ∀ line ∈ lines, SetsNothing files line := by
  constructor
  · intro hall line hline word args hword
    refine ⟨hall word (.here h hline hword), ?_⟩
    rintro sub rfl rfl w hw
    exact hall w (.incl h hline hword hw)
  · intro hall w hw
    cases hw with
    | here h' hline hword =>
      rw [h] at h'
      cases h'
      exact (hall _ hline _ _ hword).1
    | incl h' hline hsub hr =>
      rw [h] at h'
      cases h'
      exact (hall _ hline _ _ hsub).2 _ rfl rfl w hr

theorem setsNothing_of {files : Files} {line word : Str} {args : List Str} (hline : acavParse line = word :: args)
    (hw : word ∉ settingKeywords) (hi : word ≠ "include".toList ∨ ∀ sub, args ≠ [sub]) : SetsNothing files line := by
  intro word' args' hline'
  rw [hline] at hline'
  cases hline'
  refine ⟨hw, ?_⟩
  rintro sub rfl rfl
  exact hi.elim (absurd rfl) fun h => absurd rfl (h sub)

theorem not_keyword_of_comment {word : Str} (h : word.head? = some '#') :
    word ∉ settingKeywords ∧ word ≠ "include".toList := by
  have hall : (("include".toList :: settingKeywords).all fun w => w.head? ≠ some '#') = true := by decide
  rw [List.all_eq_true] at hall
  constructor
  · intro hm
    exact of_decide_eq_true (hall _ (List.mem_cons_of_mem _ hm)) h
  · rintro rfl
    exact of_decide_eq_true (hall _ List.mem_cons_self) h

/-- When every line was accepted, nothing was set if and only if no line sets
anything. -/
theorem takenLines_nil {files : Files} {fds : Nat} {incl : Str → Lists → Settings → Loaded}
    {inclTaken : Str → Lists → Settings → List Setting}
    (hincl : ∀ sub new g new' g', incl sub new g = .ok new' g' →
      (inclTaken sub new g = [] ↔ ∀ w, ReadsLine files sub w → w ∉ settingKeywords))
    {lines : List Str} {insert : Bool} {new new' : Lists} {g g' : Settings}
    (h : configLines files fds incl insert lines new g = .ok new' g') :
    takenLines files fds incl inclTaken insert lines new g = [] ↔ ∀ line ∈ lines, SetsNothing files line := by
  induction lines generalizing insert new g with
  | nil => simp [takenLines]
  | cons line rest ih =>
    rw [configLines] at h
    rw [takenLines, List.forall_mem_cons]
    cases hline : acavParse line with
    | nil =>
      simp only [hline] at h
      have hnone : SetsNothing files line := by
        intro word args hw
        rw [hline] at hw
        cases hw
      simp only [hnone, true_and]
      exact ih h
    | cons word args =>
      simp only [hline] at h ⊢
      by_cases hhash : word.head? = some '#'
      · rw [if_pos hhash] at h ⊢
        obtain ⟨hw, hi⟩ := not_keyword_of_comment hhash
        rw [and_iff_right (setsNothing_of hline hw (.inl hi))]
        exact ih h
      rw [if_neg hhash] at h ⊢
      by_cases hinc : word = "include".toList
      · have hkey : word ∉ settingKeywords := by
          rw [hinc]
          decide
        rw [if_pos hinc] at h ⊢
        match args with
        | [sub] =>
          simp only at h ⊢
          cases hr : incl sub new g with
          | ok new1 g1 =>
            simp only [hr] at h ⊢
            rw [List.append_eq_nil_iff, hincl _ _ _ _ _ hr, ih h]
            refine and_congr_left fun _ => ⟨fun hall => ?_, fun hall => ?_⟩
            · intro word' args' hline'
              rw [hline] at hline'
              cases hline'
              refine ⟨hkey, ?_⟩
              rintro sub' - hsub
              cases hsub
              exact hall
            · exact (hall _ _ hline).2 sub hinc rfl
          | failed g1 => simp only [hr] at h; cases h
          | fault => simp only [hr] at h; cases h
        | [] =>
          rw [and_iff_right (setsNothing_of hline hkey (.inr fun sub hs => by cases hs))]
          exact ih h
        | _ :: _ :: _ =>
          rw [and_iff_right (setsNothing_of hline hkey (.inr fun sub hs => by cases hs))]
          exact ih h
      · rw [if_neg hinc] at h ⊢
        cases hs : parseSetting word args with
        | some r =>
          have hkey : word ∈ settingKeywords := by
            by_contra hn
            rw [parseSetting_eq_none.2 hn] at hs
            cases hs
          cases r with
          | ok s =>
            simp only [hs] at h ⊢
            cases hg : g.set s with
            | some g1 =>
              refine iff_of_false (by simp) ?_
              rintro ⟨hn, -⟩
              exact (hn _ _ hline).1 hkey
            | none => simp only [hg] at h; cases h
          | failed => simp only [hs] at h; cases h
          | fault => simp only [hs] at h; cases h
        | none =>
          simp only [hs] at h ⊢
          cases hl : readListing files fds insert new word args with
          | ok x =>
            simp only [hl] at h ⊢
            rw [and_iff_right (setsNothing_of hline (parseSetting_eq_none.1 hs) (.inl hinc))]
            exact ih h
          | failed => simp only [hl] at h; cases h
          | fault => simp only [hl] at h; cases h

theorem taken_nil {files : Files} {fds : Nat} {path : Str} {new new' : Lists} {g g' : Settings}
    (h : readConfig files fds path new g = .ok new' g') :
    taken files fds path new g = [] ↔ ∀ w, ReadsLine files path w → w ∉ settingKeywords := by
  induction fds generalizing path new g new' g' with
  | zero => cases h
  | succ fds ih =>
    rw [readConfig] at h
    rw [taken]
    cases hf : files path with
    | none => rw [hf] at h; cases h
    | some lines =>
      simp only [hf] at h ⊢
      rw [readsLine_iff hf]
      exact takenLines_nil (fun _ _ _ _ _ hr => ih hr) h

/-! ## An accepted file -/

theorem cosignConfig_loaded {files : Files} {fds : Nat} {path : Str} {g g' : Conf}
    (h : cosignConfig files fds path g = .loaded g') :
    readConfig files fds path .empty g.settings = .ok g'.lists g'.settings := by
  unfold cosignConfig at h
  split at h
  · rename_i hr
    cases h
    exact hr
  · cases h
  · cases h

theorem loaded_taken {files : Files} {fds : Nat} {path : Str} {g g' : Conf}
    (h : cosignConfig files fds path g = .loaded g') :
    g.settings.setAll (taken files fds path .empty g.settings) = some g'.settings ∧
      (taken files fds path .empty g.settings = [] ↔ ∀ w, ReadsLine files path w → w ∉ settingKeywords) := by
  have hr := cosignConfig_loaded h
  have ht := readConfig_taken files fds path .empty g.settings
  rw [hr] at ht
  exact ⟨ht, taken_nil hr⟩

/-- `cosign_config` again and again, as long as it is accepted. -/
def reload (files : Files) (fds : Nat) (path : Str) : Nat → Conf → Loading
  | 0, g => .loaded g
  | n + 1, g =>
    match cosignConfig files fds path g with
    | .loaded g => reload files fds path n g
    | r => r

/-- A file that a fresh process accepts can be read again, any number of times
and with the same outcome, if and only if it has no line that changes a setting
in place. -/
theorem reload_iff {files : Files} {fds : Nat} {path : Str} {g : Conf}
    (h : cosignConfig files fds path .empty = .loaded g) :
    (∀ n, reload files fds path n g = .loaded g) ↔ ∀ w, ReadsLine files path w → w ∉ settingKeywords := by
  obtain ⟨hset, hnil⟩ := loaded_taken h
  constructor
  · intro hall
    have hagain : cosignConfig files fds path g = .loaded g := by
      have := hall 1
      unfold reload at this
      split at this
      · rename_i g' hg'
        cases this
        exact hg'
      · exact this
    -- the second run sets what the first has set, and nothing is left to set
    obtain ⟨hset', hnil'⟩ := loaded_taken hagain
    exact hnil'.1 (setAll_self hset')
  · intro hnone
    rw [hnil.2 hnone] at hset
    have hempty : g.settings = Settings.empty := (Option.some.inj hset).symm
    have hagain : cosignConfig files fds path g = .loaded g := by
      have hr := cosignConfig_loaded h
      rw [cosignConfig, hempty]
      rw [show Conf.empty.settings = Settings.empty from rfl, hempty] at hr
      rw [hr, ← hempty]
    intro n
    induction n with
    | zero => rfl
    | succ n ih =>
      rw [reload, hagain]
      exact ih

/-- A file with these lines, and no other file. -/
def oneFile (lines : List String) : Files := fun p => if p = "cosign.conf".toList then some (lines.map String.toList) else none

theorem cgi_reads {w : Str} (h : ReadsLine (oneFile ["cgi weblogin"]) "cosign.conf".toList w) : w = "cgi".toList := by
  have hline : acavParse "cgi weblogin".toList = ["cgi".toList, "weblogin".toList] := by decide +kernel
  cases h with
  | here hf hl hw =>
    cases hf
    rw [List.mem_singleton.1 hl, hline] at hw
    cases hw
    rfl
  | incl hf hl hs hr =>
    cases hf
    rw [List.mem_singleton.1 hl, hline] at hs
    cases hs

/-- A file with one cgi is the same each time. -/
theorem reload_cgi : ∃ g, cosignConfig (oneFile ["cgi weblogin"]) 1 "cosign.conf".toList .empty = .loaded g ∧
    ∀ n, reload (oneFile ["cgi weblogin"]) 1 "cosign.conf".toList n g = .loaded g := by
  have hload : ∃ g, cosignConfig (oneFile ["cgi weblogin"]) 1 "cosign.conf".toList .empty = .loaded g := ⟨_, rfl⟩
  obtain ⟨g, hg⟩ := hload
  refine ⟨g, hg, (reload_iff hg).2 fun w hw => ?_⟩
  rw [cgi_reads hw]
  decide

/-- A file with a suffix is rejected the second time. -/
theorem reload_suffix : ¬ ∀ (files : Files) (fds : Nat) (path : Str) (g : Conf),
    cosignConfig files fds path .empty = .loaded g → ∀ n, reload files fds path n g = .loaded g := by
  intro h
  have hload : ∃ g, cosignConfig (oneFile ["suffix @umich.edu"]) 1 "cosign.conf".toList .empty = .loaded g ∧
      ∃ g', reload (oneFile ["suffix @umich.edu"]) 1 "cosign.conf".toList 1 g = .rejected g' := ⟨_, rfl, _, rfl⟩
  obtain ⟨g, hg, g', hagain⟩ := hload
  cases (h _ _ _ _ hg 1).symm.trans hagain

/-! ## A rejected file -/

theorem firstMatch_append_none {α β : Type} {f : α → Option (Option β)} {l : List α} (h : firstMatch f l = some none)
    (m : List α) : firstMatch f (l ++ m) = firstMatch f m := by
  induction l with
  | nil => rfl
  | cons a l ih =>
    rw [firstMatch] at h
    rw [List.cons_append, firstMatch]
    cases hf : f a with
    | none => rw [hf] at h; cases h
    | some r =>
      rw [hf] at h
      cases r with
      | none => exact ih h
      | some b => cases h

theorem firstMatch_append_found {α β : Type} {f : α → Option (Option β)} {l : List α} (h : firstMatch f l ≠ some none)
    (m : List α) : firstMatch f (l ++ m) = firstMatch f l := by
  induction l with
  | nil => exact absurd rfl h
  | cons a l ih =>
    rw [firstMatch] at h
    rw [List.cons_append, firstMatch, firstMatch]
    cases hf : f a with
    | none => rfl
    | some r =>
      rw [hf] at h
      cases r with
      | none => exact ih h
      | some b => rfl

theorem firstMatch_none {α β : Type} {f : α → Option (Option β)} {l : List α} :
    firstMatch f l = some none ↔ ∀ a ∈ l, f a = some none := by
  induction l with
  | nil => simp [firstMatch]
  | cons a l ih =>
    rw [firstMatch, List.forall_mem_cons, ← ih]
    cases hf : f a with
    | none => simp
    | some r =>
      cases r with
      | none => simp
      | some b => simp

/-- More entries at the end change nothing if and only if none of them matches
what no entry has matched. -/
theorem firstMatch_append_same {α β : Type} {f : α → Option (Option β)} {l m : List α} :
    firstMatch f (l ++ m) = firstMatch f l ↔ (firstMatch f l = some none → ∀ a ∈ m, f a = some none) := by
  by_cases h : firstMatch f l = some none
  · rw [firstMatch_append_none h, h, imp_iff_right rfl, firstMatch_none]
  · exact iff_of_true (firstMatch_append_found h m) fun h' => absurd h' h

def Setting.cert? : Setting → Option Matchlist
  | .cert ml => some ml
  | _ => none

def Setting.negotiate? : Setting → Option Matchlist
  | .negotiate ml => some ml
  | _ => none

def Setting.passwd? : Setting → Option Matchlist
  | .passwd ml => some ml
  | _ => none

def Setting.factor? : Setting → Option Factorlist
  | .factor fl => some fl
  | _ => none

def Setting.suffix? : Setting → Option Str
  | .suffix s => some s
  | _ => none

/-- Nothing is set, or it was not and now is. -/
def Once {α : Type} (x y : Option α) (l : List α) : Prop := (l = [] ∧ y = x) ∨ ∃ a, l = [a] ∧ x = none ∧ y = some a

theorem Once.cons {α : Type} {x y : Option α} {l : List α} {a : α} (hx : x = none) (h : Once (some a) y l) :
    Once x y (a :: l) := by
  rcases h with ⟨rfl, rfl⟩ | ⟨b, -, hb, -⟩
  · exact .inr ⟨a, rfl, hx, rfl⟩
  · cases hb

/-- What the settings have more after a run. -/
structure Grown (g g' : Settings) (ss : List Setting) : Prop where
  certlist : g'.certlist = g.certlist ++ ss.filterMap Setting.cert?
  negotiatemap : Once g.negotiatemap g'.negotiatemap (ss.filterMap Setting.negotiate?)
  authenticatorlist : g'.authenticatorlist = g.authenticatorlist ++ ss.filterMap Setting.passwd?
  factorlist : g'.factorlist = g.factorlist ++ ss.filterMap Setting.factor?
  suffix : Once g.suffix g'.suffix (ss.filterMap Setting.suffix?)

theorem setAll_grown {g g' : Settings} {ss : List Setting} (h : g.setAll ss = some g') : Grown g g' ss := by
  induction ss generalizing g with
  | nil =>
    cases h
    exact ⟨by simp, .inl ⟨rfl, rfl⟩, by simp, by simp, .inl ⟨rfl, rfl⟩⟩
  | cons s ss ih =>
    obtain ⟨g1, hs, hss⟩ := Option.bind_eq_some_iff.1 h
    obtain ⟨hc, hn, ha, hf, hx⟩ := ih hss
    cases s with
    | cert ml =>
      cases hs
      exact ⟨by simp [hc, Setting.cert?], hn, ha, hf, hx⟩
    | passwd ml =>
      cases hs
      exact ⟨hc, hn, by simp [ha, Setting.passwd?], hf, hx⟩
    | factor fl =>
      cases hs
      exact ⟨hc, hn, ha, by simp [hf, Setting.factor?], hx⟩
    | negotiate ml =>
      rw [Settings.set] at hs
      split at hs
      · rename_i hnone
        cases hs
        exact ⟨hc, hn.cons hnone, ha, hf, hx⟩
      · cases hs
    | suffix x =>
      rw [Settings.set] at hs
      split at hs
      · rename_i hnone
        cases hs
        exact ⟨hc, hn, ha, hf, hx.cons hnone⟩
      · cases hs

variable (re : Regex)

/-- Every lookup gives the same as before. -/
structure SameLookups (g g' : Conf) : Prop where
  service : ∀ cookie, serviceFind re g'.lists.services cookie = serviceFind re g.lists.services cookie
  host : ∀ hostname, authlistFind re g'.lists.authlist hostname = authlistFind re g.lists.authlist hostname
  get : ∀ key, cosignConfigGet g'.lists.cfg key = cosignConfigGet g.lists.cfg key
  x509 : ∀ subject issuer, x509Translate re g'.settings.certlist subject issuer =
    x509Translate re g.settings.certlist subject issuer
  negotiate : ∀ user, negotiateTranslate re g'.settings.negotiatemap user =
    negotiateTranslate re g.settings.negotiatemap user
  authenticator : ∀ login pos, pickAuthenticator re g'.settings.authenticatorlist login pos =
    pickAuthenticator re g.settings.authenticatorlist login pos
  factors : g'.settings.factorlist = g.settings.factorlist
  suffix : g'.settings.suffix = g.settings.suffix

/-- These settings, made in place, matter to no lookup: no factor and no suffix,
and only entries that match nothing, or what is matched before. -/
structure Harmless (g : Settings) (ss : List Setting) : Prop where
  cert : ∀ ml ∈ ss.filterMap Setting.cert?, ∀ subject issuer, ml.key = some issuer →
    x509Translate re g.certlist subject issuer = some none → matchlistProcess re ml subject = some none
  negotiate : ∀ ml ∈ ss.filterMap Setting.negotiate?, ∀ user, matchlistProcess re ml user = some none
  passwd : g.authenticatorlist ≠ [] → ∀ ml ∈ ss.filterMap Setting.passwd?, ∀ login, matchlistProcess re ml login = some none
  /-- The first passwd lines take the place of the two that are built in. -/
  first : g.authenticatorlist = [] → ss.filterMap Setting.passwd? ≠ [] → ∀ login pos,
    pickAuthenticator re (ss.filterMap Setting.passwd?) login pos = pickAuthenticator re defAuthenticators login pos
  factor : ss.filterMap Setting.factor? = []
  suffix : ss.filterMap Setting.suffix? = []

variable {re}

theorem x509_same {certlist more : List Matchlist} :
    (∀ subject issuer, x509Translate re (certlist ++ more) subject issuer = x509Translate re certlist subject issuer) ↔
      ∀ ml ∈ more, ∀ subject issuer, ml.key = some issuer → x509Translate re certlist subject issuer = some none →
        matchlistProcess re ml subject = some none := by
  simp only [x509Translate, List.filter_append, firstMatch_append_same, List.mem_filter, decide_eq_true_eq]
  constructor
  · intro h ml hml subject issuer hkey hnone
    exact h subject issuer hnone ml ⟨hml, hkey⟩
  · rintro h subject issuer hnone ml ⟨hml, hkey⟩
    exact h ml hml subject issuer hkey hnone

theorem negotiate_same {x y : Option Matchlist} {l : List Matchlist} (h : Once x y l) :
    (∀ user, negotiateTranslate re y user = negotiateTranslate re x user) ↔
      ∀ ml ∈ l, ∀ user, matchlistProcess re ml user = some none := by
  rcases h with ⟨rfl, rfl⟩ | ⟨ml, rfl, rfl, rfl⟩
  · exact iff_of_true (fun _ => rfl) fun ml hml => by cases hml
  · simp [negotiateTranslate]

theorem authenticator_same {list more : List Matchlist} (hne : list ≠ []) :
    (∀ login pos, pickAuthenticator re (list ++ more) login pos = pickAuthenticator re list login pos) ↔
      ∀ ml ∈ more, ∀ login, matchlistProcess re ml login = some none := by
  have hmap : ∀ {β : Type} (x : Option (Option (Str × Str))) (f : Str × Str → β),
      (x.map fun r => r.map f) = some none ↔ x = some none := by
    intro β x f
    cases x with
    | none => simp
    | some r => cases r <;> simp
  have hzip : ∀ start, (list ++ more).zipIdx.drop start =
      list.zipIdx.drop start ++ (more.zipIdx list.length).drop (start - list.length) := by
    intro start
    rw [List.zipIdx_append, List.drop_append, List.length_zipIdx, Nat.zero_add]
  have happ : list ++ more ≠ [] := fun h => hne (List.append_eq_nil_iff.1 h).1
  simp only [pickAuthenticator, if_neg hne, if_neg happ, hzip, firstMatch_append_same]
  constructor
  · -- the last place of the old list is followed by all the new ones
    intro h ml hml login
    obtain ⟨n, hn⟩ : ∃ n, list.length = n + 1 := Nat.exists_eq_succ_of_ne_zero fun h0 => hne (List.eq_nil_of_length_eq_zero h0)
    have hend : (list.zipIdx.drop (n + 1)) = [] := by
      rw [List.drop_eq_nil_iff, List.length_zipIdx]
      omega
    rw [← List.zipIdx_map_fst list.length more] at hml
    obtain ⟨e, he, rfl⟩ := List.mem_map.1 hml
    have hlast := h login (some n)
    simp only [hend, firstMatch, hn, Nat.sub_self, List.drop_zero, true_imp_iff] at hlast
    rw [hn] at he
    exact (hmap _ _).1 (hlast e he)
  · intro h login pos _ e he
    have hmem : e.1 ∈ more := List.fst_mem_of_mem_zipIdx (List.mem_of_mem_drop he)
    exact (hmap _ _).2 (h _ hmem login)

theorem once_same {α : Type} {x y : Option α} {l : List α} (h : Once x y l) : y = x ↔ l = [] := by
  rcases h with ⟨rfl, rfl⟩ | ⟨a, rfl, rfl, rfl⟩
  · exact iff_of_true rfl rfl
  · simp

theorem rejected_taken {files : Files} {fds : Nat} {path : Str} {g g' : Conf}
    (h : cosignConfig files fds path g = .rejected g') :
    g'.lists = g.lists ∧ Grown g.settings g'.settings (taken files fds path .empty g.settings) := by
  unfold cosignConfig at h
  split at h
  · cases h
  · rename_i settings hr
    cases h
    have ht := readConfig_taken files fds path .empty g.settings
    rw [hr] at ht
    exact ⟨rfl, setAll_grown ht⟩
  · cases h

/-- A rejected file changes no lookup if and only if the settings that were made
before the line that fails are harmless. -/
theorem rejected_same_iff (re : Regex) {files : Files} {fds : Nat} {path : Str} {g g' : Conf}
    (h : cosignConfig files fds path g = .rejected g') :
    SameLookups re g g' ↔ Harmless re g.settings (taken files fds path .empty g.settings) := by
  obtain ⟨hlists, hcert, hneg, hauth, hfactor, hsuffix⟩ := rejected_taken h
  have hfirst : ∀ {more : List Matchlist}, g.settings.authenticatorlist = [] → more ≠ [] →
      ((∀ login pos, pickAuthenticator re (g.settings.authenticatorlist ++ more) login pos =
          pickAuthenticator re g.settings.authenticatorlist login pos) ↔
        ∀ login pos, pickAuthenticator re more login pos = pickAuthenticator re defAuthenticators login pos) := by
    intro more hnil hne
    rw [hnil]
    exact Iff.rfl
  constructor
  · rintro ⟨-, -, -, h1, h2, h3, h4, h5⟩
    rw [hcert] at h1
    rw [hauth] at h3
    refine ⟨x509_same.1 h1, (negotiate_same hneg).1 h2, ?_, ?_, ?_, (once_same hsuffix).1 h5⟩
    · exact fun hne => (authenticator_same hne).1 h3
    · exact fun hnil hne => (hfirst hnil hne).1 h3
    · rw [hfactor] at h4
      exact List.append_right_eq_self.1 h4
  · rintro ⟨h1, h2, h3, h4, h5, h6⟩
    refine ⟨by rw [hlists]; exact fun _ => rfl, by rw [hlists]; exact fun _ => rfl, by rw [hlists]; exact fun _ => rfl,
      ?_, (negotiate_same hneg).2 h2, ?_, ?_, (once_same hsuffix).2 h6⟩
    · rw [hcert]
      exact x509_same.2 h1
    · rw [hauth]
      by_cases hnil : g.settings.authenticatorlist = []
      · by_cases hne : (taken files fds path .empty g.settings).filterMap Setting.passwd? = []
        · rw [hne, List.append_nil]
          exact fun _ _ => rfl
        · exact (hfirst hnil hne).2 (h4 hnil hne)
      · exact (authenticator_same hnil).2 (h3 hnil)
    · rw [hfactor, h5, List.append_nil]

theorem harmless_nil (re : Regex) (g : Settings) : Harmless re g [] where
  cert ml hml := by cases hml
  negotiate ml hml := by cases hml
  passwd _ ml hml := by cases hml
  first _ h := absurd rfl h
  factor := rfl
  suffix := rfl

/-- The suffix of a rejected file stays. -/
theorem rejected_suffix : ¬ ∀ (re : Regex) (files : Files) (fds : Nat) (path : Str) (g g' : Conf),
    cosignConfig files fds path g = .rejected g' → SameLookups re g g' := by
  intro h
  have hload : ∃ g', cosignConfig (oneFile ["suffix @umich.edu", "servce"]) 1 "cosign.conf".toList .empty = .rejected g' ∧
      g'.settings.suffix = some "@umich.edu".toList := ⟨_, rfl, rfl⟩
  obtain ⟨g', hg', hsuffix⟩ := hload
  have hsame := (h ⟨fun _ _ _ => .nomatch⟩ _ _ _ _ _ hg').suffix
  rw [hsuffix] at hsame
  cases hsame

/-- A host before the line that fails is forgotten. -/
theorem rejected_cgi : ∃ g', cosignConfig (oneFile ["cgi weblogin", "servce"]) 1 "cosign.conf".toList .empty = .rejected g' ∧
    SameLookups ⟨fun _ _ _ => .nomatch⟩ .empty g' := by
  have hload : ∃ g', cosignConfig (oneFile ["cgi weblogin", "servce"]) 1 "cosign.conf".toList .empty = .rejected g' ∧
      taken (oneFile ["cgi weblogin", "servce"]) 1 "cosign.conf".toList .empty Settings.empty = [] := ⟨_, rfl, rfl⟩
  obtain ⟨g', hg', hnil⟩ := hload
  refine ⟨g', hg', (rejected_same_iff _ hg').2 ?_⟩
  rw [show Conf.empty.settings = Settings.empty from rfl, hnil]
  exact harmless_nil _ _

end Cosign
