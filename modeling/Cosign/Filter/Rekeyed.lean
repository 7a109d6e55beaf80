import Cosign.Filter.Latency
/-!
# The old name of a rekeyed cookie

A record is stored under the name its cookie was given last, and a record
under the old name stays where it is. It is only when that record is too old,
and the call does not refresh it, that the old name is dead.
-/

namespace Cosign.Filter

open Lib

/-- The servers do not know the cookie, and give its name to no other. -/
def Call.Unknown (x : Call) (c : Str) : Prop :=
  ∀ a ∈ x.answers, (a.sent = "CHECK ".toList ++ c ∨ a.sent = "REKEY ".toList ++ c → a.line.head? = some '5') ∧
    ¬ (Accepts x.cfg x.cookie a ∧ Renames x.cookie a c)

/-- The answer changes the record: another address, or other factors. -/
def Changes (a : Answer) (lsi : Sinfo) : Prop :=
  a.ipaddr ≠ lsi.ipaddr ∨ supportsFactors (protoInt a.conn.proto) ∧ a.factor ≠ lsi.factor

/-- When the call begins, the record is too old to be used, and if it is the
record of the call's cookie, every answer it accepts changes it. -/
def Outdated (x : Call) (path : Str) : Prop :=
  ∀ f, x.pre.files path = some f → f.mtime + idleTime < x.pre.clock ∧
    (pathOf x.cfg x.cookie = some path → ∀ lsi, f.info = some (0, lsi) → ∀ a ∈ x.answers, Accepts x.cfg x.cookie a →
      Changes a lsi)

def Stale (path : Str) (w : World) : Prop := ∀ f, w.files path = some f → f.mtime + idleTime < w.clock

section
variable {c path : Str}

theorem Stale.passes {w w' : World} (h : Stale path w) (hp : Passes w w') : Stale path w' := fun f hf =>
  Nat.lt_of_lt_of_le (h f (hp.files path f hf)) hp.clock

theorem Stale.frame {w w' : World} (h : Stale path w) (hfiles : w'.files path = w.files path) (hclock : w.clock ≤ w'.clock) :
    Stale path w' := fun f hf => Nat.lt_of_lt_of_le (h f (hfiles ▸ hf)) hclock

theorem Call.Made.clock {x : Call} (h : x.Made) : x.pre.clock ≤ x.post.clock := by
  obtain ⟨tv, -, hpost⟩ := h.spec
  exact hpost.clock

/-- No answer for an unknown cookie is accepted. -/
theorem not_accepts {x : Call} (h : x.Unknown x.cookie) {a : Answer} (ha : a ∈ x.answers) :
    ¬ Accepts x.cfg x.cookie a := by
  rintro ⟨rekey, si, si', rekey', hsent, hcheck⟩
  have hline : a.line.head? = some '5' := by
    refine (h a ha).1 ?_
    rw [hsent, checkCommand]
    split
    · exact .inr rfl
    · exact .inl rfl
  rw [checkLine, hline] at hcheck
  cases hcheck

/-- A call that is not about the cookie leaves its records alone. -/
theorem unknown_frame {cfg : HostConfig} {x : Call} (hx : x.Made) (hpath : pathOf cfg c = some path) (h : x.Unknown c) :
    x.post.files path = x.pre.files path := by
  rcases made_keeps hx with hfiles | ⟨q, a, f, hkeeps⟩
  · rw [hfiles]
  rw [hkeeps.files, Function.update_of_ne]
  rintro rfl
  rcases hkeeps.about with hq | ⟨b, hb, name, hacc, hren, hq⟩
  · obtain rfl := mkcookiepath_inj hpath hq
    exact not_accepts h hkeeps.told.mem hkeeps.told.accepts
  · obtain rfl := mkcookiepath_inj hpath hq
    exact (h b hb).2 ⟨hacc, hren⟩

/-- With an old record only, an unknown cookie is refused. -/
theorem unknown_refused {x : Call} (hx : x.Made) (h : x.Unknown x.cookie)
    (hstale : ∀ p, pathOf x.cfg x.cookie = some p → Stale p x.pre) : x.res.rc ≠ .ok := by
  intro hok
  obtain ⟨tv, htv, hpost⟩ := hx.spec
  rcases hpost.effect with ⟨-, heffect⟩ | ⟨-, -, a, p, f, htold, -⟩
  · rcases heffect hok with ⟨p, f, lsi, habout, hf, -, hyoung, -⟩ | ⟨a, htold⟩
    · rcases habout with hp | ⟨a, ha, name, hacc, -⟩
      · have hold := hstale p hp f hf
        omega
      · exact not_accepts h ha hacc
    · exact not_accepts h htold.mem htold.accepts
  · exact not_accepts h htold.mem htold.accepts

/-- After the call that gave the cookie its new name, the records under the old
one are too old. -/
theorem outdated_stale {cfg : HostConfig} {x : Call} {name : Str} (hx : x.Made)
    (hrekey : x.res.rekey = some (some name)) (hne : name ≠ x.cookie) (hpath : pathOf cfg x.cookie = some path)
    (hold : Outdated x path) : Stale path x.post := by
  obtain ⟨tv, htv, hpost⟩ := hx.spec
  have hpre : Stale path x.pre := fun f hf => (hold f hf).1
  rcases hpost.effect with ⟨hfiles, -⟩ | ⟨-, -, a, q, f, htold, habout, hfiles, hwritten⟩
  · exact hpre.frame (by rw [hfiles]) hpost.clock
  by_cases hq : path = q
  · subst hq
    cases hwritten with
    | refreshed hf hinfo hleft hsame hfactor =>
      rename_i f lsi lsi'
      obtain rfl : lsi = lsi' := by
        rcases hleft with h | ⟨hage, -⟩
        · exact h.symm
        · have hlate : f.mtime + idleTime < x.pre.clock := hpre f hf
          omega
      have hown : pathOf x.cfg x.cookie = some path := by
        rcases habout with h | ⟨b, hb, name', hacc, hren, h⟩
        · exact h
        · rwa [mkcookiepath_inj hpath h]
      -- the record is as the answer
      exfalso
      rcases (hold f hf).2 hown lsi hinfo a htold.mem htold.accepts with hip | ⟨hs, hfac⟩
      · exact hip (htold.said.1.symm.trans hsame.1)
      · rw [← htold.factors.1] at hs
        exact hfac ((htold.factors.2 hs).symm.trans (hfactor hs))
    | stored _ _ hname => exact absurd (mkcookiepath_inj (hname name hrekey) hpath) hne
  · exact hpre.frame (by rw [hfiles, Function.update_of_ne hq]) hpost.clock

theorem stale_run {cfg : HostConfig} {w t : World} {tr : List Call} (hrun : Calls w tr t) (hpath : pathOf cfg c = some path)
    (hunknown : ∀ y ∈ tr, y.Unknown c) (h : Stale path w) : Stale path t := by
  induction hrun with
  | nil => exact h
  | cons hp hx _ ih =>
    refine ih (fun y hy => hunknown y (List.mem_cons_of_mem _ hy)) ?_
    exact (h.passes hp).frame (unknown_frame hx hpath (hunknown _ List.mem_cons_self)) hx.clock

/-- When no record under the old name can be used any more, a rekeyed cookie is
dead. -/
theorem rekeyed_dead {w t : World} {tr₁ tr₂ : List Call} {x : Call} {name : Str} (hrun : Calls w (tr₁ ++ x :: tr₂) t)
    (hrekey : x.res.rekey = some (some name)) (hne : name ≠ x.cookie) (hunknown : ∀ y ∈ tr₂, y.Unknown x.cookie)
    (hold : ∀ y ∈ tr₂, y.cookie = x.cookie → ∀ p, pathOf y.cfg x.cookie = some p → Outdated x p) :
    ∀ y ∈ tr₂, y.cookie = x.cookie → y.res.rc ≠ .ok := by
  intro y hy hcookie
  obtain ⟨u, -, -, hx, htail⟩ := hrun.split
  obtain ⟨tr₃, tr₄, rfl⟩ := List.append_of_mem hy
  obtain ⟨u', hbefore, hpasses, hmade, -⟩ := htail.split
  refine unknown_refused hmade (hcookie ▸ hunknown y hy) fun p hp => ?_
  rw [hcookie] at hp
  have hstale := outdated_stale hx hrekey hne hp (hold y hy hcookie p hp)
  exact (stale_run hbefore hp (fun z hz => hunknown z (List.mem_append_left _ hz)) hstale).passes hpasses

end

/-! ## A record that is refreshed -/

def newScookie : Str := "cosign-wiki=new".toList

theorem newScookie_ne : newScookie ≠ scookie := by decide

/-- A `REKEY` is answered until 205, and then the old name is not known. -/
def rekeyScript (t : Nat) (sent : Str) : Option Str :=
  some (if t < 205 then
      if hasPrefix "REKEY ".toList sent then "231 10.0.0.1 ann umich cosign-wiki=new".toList
      else "231 10.0.0.1 ann umich".toList
    else "533 CHECK: cookie not in db!".toList)

theorem rekeyScript_line : ∀ t sent line, rekeyScript t sent = some line → OneLine line := by
  intro t sent line h
  simp only [rekeyScript, Option.some.injEq] at h
  split at h
  · split at h
    · subst h
      exact oneLine_of_isOneLine (by decide)
    · subst h
      exact oneLine_of_isOneLine (by decide)
  · subst h
    exact oneLine_of_isOneLine (by decide)

def rekeyPlays (wants : Bool) (w : World) : Option (Valid × World) :=
  plays rekeyScript wikiFilter scookie wants "10.0.0.1".toList wikiServers w

def rekeyCall (wants : Bool) (w : World) (v : Valid) (w' : World) : Call :=
  ⟨wikiFilter, scookie, wants, "10.0.0.1".toList, w, v, w'⟩

/-- The cookie has a record of 100. At 200 it gets its new name, and at 210 the
old one is still good. -/
theorem rekey_plays : ∃ v₁ w₁ v₂ w₂ v₃ w₃, rekeyPlays false (emptyWorld 100) = some (v₁, w₁) ∧
    rekeyPlays true { w₁ with clock := 200 } = some (v₂, w₂) ∧ rekeyPlays false { w₂ with clock := 210 } = some (v₃, w₃) ∧
    v₂.rc = .ok ∧ v₂.rekey = some (some newScookie) ∧ v₃.rc = .ok ∧ w₃.heard = w₂.heard ∧ w₁.clock = 100 ∧
    w₂.clock = 200 := by
  refine ⟨_, _, _, _, _, _, rfl, rfl, rfl, ?_⟩
  exact ⟨rfl, rfl, rfl, rfl, rfl, rfl⟩

theorem rekeyed_lives :
    ¬ ∀ (w t : World) (tr₁ tr₂ : List Call) (x : Call) (name : Str), (∀ p, w.files p = none) →
      Calls w (tr₁ ++ x :: tr₂) t → x.res.rc = .ok → x.res.rekey = some (some name) → name ≠ x.cookie →
      (∀ y ∈ tr₂, y.Unknown x.cookie) → ∀ y ∈ tr₂, y.cookie = x.cookie → y.res.rc ≠ .ok := by
  intro h
  obtain ⟨v₁, w₁, v₂, w₂, v₃, w₃, h₁, h₂, h₃, hok, hrekey, hok₃, hheard, hc₁, hc₂⟩ := rekey_plays
  have hle₁ : w₁.clock ≤ 200 := by omega
  have hle₂ : w₂.clock ≤ 210 := by omega
  have hrun : Calls (emptyWorld 100) ([rekeyCall false (emptyWorld 100) v₁ w₁] ++
      rekeyCall true { w₁ with clock := 200 } v₂ w₂ :: [rekeyCall false { w₂ with clock := 210 } v₃ w₃]) w₃ :=
    .cons (passes_clock (Nat.le_refl 100)) (plays_made rekeyScript_line h₁)
      (.cons (passes_clock hle₁) (plays_made rekeyScript_line h₂)
        (.cons (passes_clock hle₂) (plays_made rekeyScript_line h₃) (.nil _)))
  refine h _ _ _ _ _ newScookie (fun _ => rfl) hrun hok hrekey newScookie_ne ?_ _ List.mem_cons_self rfl hok₃
  rw [List.forall_mem_singleton]
  intro a ha
  simp only [Call.answers, rekeyCall, hheard, List.drop_length] at ha
  cases ha

/-- A cookie without a record gets its new name at 200, and at 210 the old one
is refused. -/
theorem rekeyed_refused : ∃ v₁ w₁ v₂ w₂, rekeyPlays true (emptyWorld 200) = some (v₁, w₁) ∧
    rekeyPlays false { w₁ with clock := 210 } = some (v₂, w₂) ∧ v₁.rc = .ok ∧ v₂.rc ≠ .ok := by
  have hplays : ∃ v₁ w₁ v₂ w₂, rekeyPlays true (emptyWorld 200) = some (v₁, w₁) ∧
      rekeyPlays false { w₁ with clock := 210 } = some (v₂, w₂) ∧ v₁.rc = .ok ∧ v₁.rekey = some (some newScookie) ∧
      w₁.clock = 200 ∧ ∃ a, w₂.heard = w₁.heard ++ [a] ∧ a.line.head? = some '5' ∧
        a.sent = "CHECK ".toList ++ scookie := by
    refine ⟨_, _, _, _, rfl, rfl, ?_⟩
    exact ⟨rfl, rfl, rfl, _, rfl, rfl, rfl⟩
  obtain ⟨v₁, w₁, v₂, w₂, h₁, h₂, hok, hrekey, hc, a, hheard, hline, hsent⟩ := hplays
  have hle : w₁.clock ≤ 210 := by omega
  have hrun : Calls (emptyWorld 200) ([] ++ rekeyCall true (emptyWorld 200) v₁ w₁ ::
      [rekeyCall false { w₁ with clock := 210 } v₂ w₂]) w₂ :=
    .cons (passes_clock (Nat.le_refl 200)) (plays_made rekeyScript_line h₁)
      (.cons (passes_clock hle) (plays_made rekeyScript_line h₂) (.nil _))
  refine ⟨v₁, w₁, v₂, w₂, h₁, h₂, hok, rekeyed_dead hrun hrekey newScookie_ne ?_ ?_
    (rekeyCall false { w₁ with clock := 210 } v₂ w₂) List.mem_cons_self rfl⟩
  · rw [List.forall_mem_singleton]
    intro b hb
    simp only [Call.answers, rekeyCall, hheard, List.drop_left, List.mem_singleton] at hb
    subst hb
    refine ⟨fun _ => hline, fun hren => ?_⟩
    have hre : "CHECK ".toList ++ scookie = "REKEY ".toList ++ scookie := hsent.symm.trans hren.2.1
    exact absurd hre (by decide)
  · rw [List.forall_mem_singleton]
    intro _ p _ f hf
    cases hf

end Cosign.Filter
