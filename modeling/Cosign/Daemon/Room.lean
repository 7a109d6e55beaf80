import Cosign.Daemon.Merge
/-!
# Records and the sizes of their reader

`read_cookie` copies each line of a record into a field of its own and checks no
size. `f_login` checks the words of the command one by one, and only the first
of the factors, but writes all the factors on one line. What fits is decided by
that line and by the time.
-/

namespace Cosign

open Lib

/-! ## Lines and fields -/

/-- Each line fits the field its first character names. -/
def LinesFit (text : Str) : Prop :=
  ∀ l ∈ text.splitOn '\n', ∀ k v f, l = k :: v → Field.ofKey k = some f → v.length < f.size

/-- Each line fits, and `read_cookie` returns 0. -/
structure FitsReader (text : Str) : Prop where
  lines : LinesFit text
  reads : ∀ g m, ∃ ci, parseCookie ⟨text, g, m⟩ = some (0, ci)

theorem splitOn_fieldLine {k : Char} {v : Str} (hk : k ≠ '\n') (hv : '\n' ∉ v) (s : Str) :
    (fieldLine k v ++ s).splitOn '\n' = (k :: v) :: s.splitOn '\n' := by
  have hl : '\n' ∉ k :: v := by simp [hv, Ne.symm hk]
  have := List.splitOn_append_cons_self_of_not_mem hl s
  simpa [fieldLine] using this

theorem linesFit_nil : LinesFit [] := by
  intro l hl k v f he
  subst he
  simp at hl

/-- The first line, and the others. -/
theorem linesFit_line {k : Char} {v s : Str} (hk : k ≠ '\n') (hv : '\n' ∉ v) :
    LinesFit (fieldLine k v ++ s) ↔ (∀ f, Field.ofKey k = some f → v.length < f.size) ∧ LinesFit s := by
  unfold LinesFit
  rw [splitOn_fieldLine hk hv]
  constructor
  · intro h
    exact ⟨fun f hf => h _ List.mem_cons_self k v f rfl hf, fun l hl => h l (List.mem_cons_of_mem _ hl)⟩
  · rintro ⟨h1, h2⟩ l hl k' v' f he hf
    rcases List.mem_cons.1 hl with rfl | hl
    · cases he
      exact h1 f hf
    · exact h2 l hl k' v' f he hf

theorem linesFit_field {k : Char} {f : Field} {v s : Str} (hk : Field.ofKey k = some f) (hv : '\n' ∉ v) :
    LinesFit (fieldLine k v ++ s) ↔ v.length < f.size ∧ LinesFit s := by
  have hkn : k ≠ '\n' := by rintro rfl; simp [Field.ofKey] at hk
  rw [linesFit_line hkn hv, hk]
  simp

theorem linesFit_other {k : Char} {v s : Str} (hk : Field.ofKey k = none) (hkn : k ≠ '\n') (hv : '\n' ∉ v) :
    LinesFit (fieldLine k v ++ s) ↔ LinesFit s := by
  rw [linesFit_line hkn hv, hk]
  simp

/-! ## The record of `f_login` -/

section
variable {ip ipCur user : Str} {factors : List Str} {n : Nat} {tkt : Option Str}

/-- Only the factors and the time may overrun. -/
theorem linesFit_recordText (hw : Written ip ipCur user factors tkt) :
    LinesFit (recordText ip ipCur user factors n tkt) ↔ (unwords factors).length < 256 ∧ (dec n).length < 12 := by
  have hi : ip.length < Field.ipaddr.size := hw.ip.2
  have hj : ipCur.length < Field.ipaddrCur.size := hw.ipCur.2
  have hp : user.length < Field.user.size := hw.user.2
  have htkt : LinesFit (ticketLine tkt) := by
    cases tkt with
    | none => exact linesFit_nil
    | some k =>
      obtain ⟨hnl, hlen⟩ := hw.tkt k rfl
      have := (linesFit_field (s := []) (by decide : Field.ofKey 'k' = some .krbtkt) hnl).2 ⟨hlen, linesFit_nil⟩
      simpa [ticketLine] using this
  simp only [recordText, List.append_assoc]
  rw [linesFit_other (by decide) (by decide) (by decide), linesFit_other (by decide) (by decide) (by decide),
    linesFit_field (f := .ipaddr) (by decide) hw.ip.1, linesFit_field (f := .ipaddrCur) (by decide) hw.ipCur.1,
    linesFit_field (f := .user) (by decide) hw.user.1,
    linesFit_field (f := .realm) (by decide) (unwords_no_newline hw.factors),
    linesFit_field (f := .ctime) (by decide) (dec_no_newline n)]
  constructor
  · exact fun h => ⟨h.2.2.2.1, h.2.2.2.2.1⟩
  · exact fun h => ⟨hi, hj, hp, h.1, h.2, htkt⟩

theorem recordText_fitsReader (hw : Written ip ipCur user factors tkt) :
    FitsReader (recordText ip ipCur user factors n tkt) ↔ (unwords factors).length < 256 ∧ (dec n).length < 12 := by
  constructor
  · exact fun h => (linesFit_recordText hw).1 h.lines
  · intro h
    refine ⟨(linesFit_recordText hw).2 h, fun g m => ?_⟩
    have hread := parseCookie_recordText hw (Nat.lt_trans h.1 (by decide)) (Nat.lt_trans h.2 (by decide)) g m
    rw [if_pos h] at hread
    exact ⟨_, hread⟩

end

/-- Whether the factors and the time it is about to write fit, given the record
it has read, if any. -/
structure LoginRoom (now : Nat) (addinfo : Bool) (ci : Cinfo) (a : LoginArgs) : Prop where
  realm : (unwords (loginFactors addinfo ci a)).length < 256
  ctime : (dec (if addinfo then ci.itime else now)).length < 12

theorem Publishes.fits_iff {cfg : Config} {ses : Session} {env : Env} {line : Str} {s : Store} {a : LoginArgs}
    {path : Str} {rc : Int} {ci : Cinfo} {text : Str} {already : Bool}
    (hp : Publishes cfg ses env (acavParse line) s a path rc ci text already) :
    FitsReader text ↔ LoginRoom env.now (rc = 0) ci a := by
  obtain ⟨rfl, -⟩ := loginRecord_full hp.record
  rw [loginText, recordText_fitsReader (hp.written (acavParse_words line))]
  exact ⟨fun h => ⟨h.1, h.2⟩, fun h => ⟨h.realm, h.ctime⟩⟩

/-! ## Runs -/

/-- Each record that a `LOGIN` publishes in this step has `P`. -/
def Publishing (cfg : Config) (y : Entry Store Event Outcome) (P : Env → LoginArgs → Int → Cinfo → Str → Prop) : Prop :=
  ∀ ses env line a path rc ci text already, y.ev = .command ses env line → IsLogin line →
    Publishes cfg ses env (acavParse line) y.pre a path rc ci text already → P env a rc ci text

/-- What it publishes fits its reader. -/
def RecordsFit (cfg : Config) (y : Entry Store Event Outcome) : Prop :=
  Publishing cfg y fun _ _ _ _ text => FitsReader text

/-- There is room for what it publishes. -/
def RecordsRoomy (cfg : Config) (y : Entry Store Event Outcome) : Prop :=
  Publishing cfg y fun env a rc ci _ => LoginRoom env.now (rc = 0) ci a

theorem recordsFit_iff {cfg : Config} {y : Entry Store Event Outcome} : RecordsFit cfg y ↔ RecordsRoomy cfg y := by
  constructor
  · intro h ses env line a path rc ci text already hev hl hp
    exact hp.fits_iff.1 (h ses env line a path rc ci text already hev hl hp)
  · intro h ses env line a path rc ci text already hev hl hp
    exact hp.fits_iff.2 (h ses env line a path rc ci text already hev hl hp)

/-- Every login cookie can be read. -/
def LoginsRead (cfg : Config) (s : Store) : Prop :=
  ∀ c path, mkcookiepath none cfg.hashlen c maxPathLen = some path → ∀ f, s.get path = some f →
    ∃ ci, parseCookie f = some (0, ci)

/-- The event is a `LOGIN`. -/
def Event.IsLogin (ev : Event) : Prop := ∃ ses env line, ev = .command ses env line ∧ Cosign.IsLogin line

theorem loginsRead_step {cfg : Config} {y : Entry Store Event Outcome}
    (hstep : step cfg y.pre y.ev = some (y.res, y.post)) (hl : y.ev.IsLogin) (hroom : RecordsRoomy cfg y)
    (h : LoginsRead cfg y.pre) : LoginsRead cfg y.post := by
  intro c path hpath f hf
  obtain ⟨ses, env, line, hev, hline⟩ := hl
  rw [hev] at hstep
  rcases step_cases hstep with ⟨ses', env', line', d, he, -, -, hrun⟩ | ⟨ses', env', line', d, he, -, hno, -⟩ |
    ⟨now, ls, r, he, -⟩
  · cases he
    rcases fLogin_get hpath hrun with hsame | ⟨a, rc, ci, text, already, hp, -, hget⟩ | ⟨-, hn⟩
    · exact h c path hpath f (hsame.symm.trans hf)
    · rw [hget] at hf
      cases hf
      exact (hp.fits_iff.2 (hroom ses env line a path rc ci text already hev hline hp)).reads _ _
    · rw [hn] at hf
      cases hf
  · cases he
    exact absurd hline hno
  · cases he

/-- In a run, the records that the `LOGIN`s publish fit their reader just when
there is room for their factors and their time; and then every login cookie can
be read after each of them. -/
theorem login_records_fit_iff {cfg : Config} {s t : Store} {tr : List (Entry Store Event Outcome)}
    (hrun : Run cfg s tr t) : ((∀ y ∈ tr, RecordsFit cfg y) ↔ ∀ y ∈ tr, RecordsRoomy cfg y) ∧
      ((∀ y ∈ tr, y.ev.IsLogin) → LoginsRead cfg s → (∀ y ∈ tr, RecordsRoomy cfg y) →
        LoginsRead cfg t ∧ ∀ y ∈ tr, LoginsRead cfg y.post) := by
  constructor
  · exact forall_congr' fun y => imp_congr_right fun _ => recordsFit_iff
  · intro hl hs hroom
    have hinv := hrun.inv (LoginsRead cfg) (fun y => y.ev.IsLogin ∧ RecordsRoomy cfg y)
      (fun y hy hc hpre => loginsRead_step hy hc.1 hc.2 hpre) hs fun y hy => ⟨hl y hy, hroom y hy⟩
    exact ⟨hinv.1, fun y hy => (hinv.2 y hy).2⟩

/-! ## Two factors -/

/-- Each of them fits on its own. -/
def twoFactors : Str :=
  "LOGIN cosign=abc 10.0.0.1 ann ".toList ++ List.replicate 128 'a' ++ ' ' :: List.replicate 128 'b'

set_option maxRecDepth 4000 in
/-- The record of an accepted `LOGIN` that overruns its reader. -/
theorem twoFactors_overrun : ∃ d t,
    step .default (.ofFiles []) (.command .cgi (.calm 100) twoFactors) = some (.answered d, t) ∧ d.answers 200 ∧
      t.cookie "cosign=abc".toList = none :=
  ⟨_, _, rfl, ⟨_, List.mem_singleton.2 rfl, rfl⟩, rfl⟩

theorem login_records_fit_ann : ∃ tr t, Run .default (.ofFiles []) tr t ∧ tr ≠ [] ∧
    ((∀ y ∈ tr, RecordsFit .default y) ↔ ∀ y ∈ tr, RecordsRoomy .default y) := by
  have hstep : step .default (.ofFiles []) annIn = some (.answered (loginStored .cgi
      ⟨"cosign=abc".toList, "10.0.0.1".toList, "ann".toList, "umich".toList, [], none⟩), annThere) := rfl
  have hrun : Run .default (.ofFiles []) _ annThere := .cons hstep (.nil _)
  exact ⟨_, _, hrun, by simp, (login_records_fit_iff hrun).1⟩

end Cosign
