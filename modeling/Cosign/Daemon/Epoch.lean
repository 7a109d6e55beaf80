import Cosign.Daemon.Peers
import Cosign.Daemon.Stamps
import Cosign.Daemon.Lifetime
/-!
# Times of more than 31 bits

A login's time goes into its record with `%lu` and comes back through `atoi`.
A cookie's time goes to the peers with `%d` and comes back through `atoi`.
Both are an `int` on the way, so both are right exactly below 2^31.
-/

namespace Cosign

open Lib

/-! ## Decisions -/

/-- `f_login` writes `text` with the creation time `t`. A cookie that is
stored again keeps its last time. -/
structure LoginAt (t : Nat) (text : Str) : Prop where
  record : ∃ acavFails now addinfo ci a already, loginRecord acavFails now addinfo ci a = some (.full text already) ∧
    Written (if addinfo then ci.ipaddr else a.ip) a.ip a.user (loginFactors addinfo ci a) (loginTicket addinfo ci a.krbpath).1 ∧
    t = if addinfo then ci.itime else now

/-- `eat_cookie` deletes what was made at `t`, and is neither logged out nor
idle for too long, when it is older than the hard timeout. -/
def DeletesRight (t : Nat) : Prop :=
  ∀ (text : Str) (cfg : Config) (now : Nat) (s s' : Store) (path : Str) (g : Bool) (m : Nat) (r : Eaten),
    LoginAt t text → s.get path = some ⟨text, g, m⟩ →
    (g = true → (now : Int) - m ≤ cfg.loggedoutCache) → (now : Int) - m ≤ cfg.idleCache →
    Prog.run exec (eatCookie cfg now path) s = some (r, s') → r ≠ .failed →
    (s'.get path = none ↔ (now : Int) - t > cfg.hardTimeout)

/-- `f_time` moves a cookie's time forward on the line that `monster` writes
about `t`, when that is later. -/
def MovesRight (t : Nat) : Prop :=
  ∀ (cfg : Config) (env : Env) (name line path : Str) (state : Nat) (s s' : Store) (f : File),
    hasPrefix "cosign=".toList name → IsWord name → mkcookiepath none cfg.hashlen name maxPathLen = some path →
    reportLine name t state = line ++ "\r\n".toList → s.get path = some f → state = 1 ∨ f.isgid = false →
    Prog.run exec (timeLines cfg env 0 [line]) s = some ((), s') →
    ((∃ f', s'.get path = some f' ∧ f.mtime < f'.mtime) ↔ f.mtime < t)

/-! ## An `int` of a time -/

theorem atoi_dec_eq {t : Nat} (h : t < 10 ^ 11) : atoi (dec t) = printed t := by
  have hmin : min (2 ^ 63 - 1) (t : Int) = t := by omega
  unfold printed
  rw [atoi_dec, hmin]

theorem printed_le (t : Nat) : printed t ≤ t := bmod_le t (by omega)

theorem printed_range (t : Nat) : -2147483648 ≤ printed t ∧ printed t < 2147483648 := by
  have h1 := Int.le_bmod (x := (t : Int)) (m := 2 ^ 32) (by decide)
  have h2 := Int.bmod_lt (x := (t : Int)) (m := 2 ^ 32) (by decide)
  unfold printed
  omega

theorem dec_length_lt {t : Nat} (h : t < 10 ^ 11) : (dec t).length < 12 := by
  rw [dec, Nat.lt_succ_iff]
  exact Nat.length_toDigits_le_iff (by decide) (by decide) |>.2 h

/-! ## The hard timeout -/

/-- What `eat_cookie` does with a login's record. -/
theorem eatCookie_login {cfg : Config} {now t m : Nat} {s s' : Store} {path text : Str} {g : Bool} {r : Eaten}
    (ht : t < 10 ^ 11) (hl : LoginAt t text) (hf : s.get path = some ⟨text, g, m⟩)
    (hout : g = true → (now : Int) - m ≤ cfg.loggedoutCache) (hidle : (now : Int) - m ≤ cfg.idleCache)
    (hrun : Prog.run exec (eatCookie cfg now path) s = some (r, s')) (hr : r ≠ .failed) :
    s'.get path = none ↔ (now : Int) - printed t > cfg.hardTimeout := by
  obtain ⟨acavFails, n, addinfo, ci, a, already, hrec, hw, rfl⟩ := hl.record
  obtain ⟨rfl, -⟩ := loginRecord_full hrec
  rw [run_eatCookie] at hrun
  obtain ⟨⟨rc, c⟩, hread, hrun⟩ := Option.map_eq_some_iff.1 hrun
  simp only [Store.cookie, hf] at hread
  have hrc : rc = 0 := by
    rcases parseCookie_codes hread with h | h
    · exact h
    · rw [if_pos (by simp only [h]; decide)] at hrun
      cases hrun
      exact absurd rfl hr
  subst hrc
  obtain rfl := recordText_read hw hread
  have hexp : expired cfg now ⟨2, if g then 0 else 1, if addinfo then ci.ipaddr else a.ip, a.ip, a.user,
      unwords (loginFactors addinfo ci a), dec (if addinfo then ci.itime else n),
      (loginTicket addinfo ci a.krbpath).1.getD [], m⟩ ↔
      (now : Int) - printed (if addinfo then ci.itime else n) > cfg.hardTimeout := by
    rw [expired, atoi_dec_eq ht]
    constructor
    · rintro (⟨h0, hlate⟩ | hlate | hlate)
      · cases g with
        | true => exact absurd hlate (by have := hout rfl; simp only; omega)
        | false => cases h0
      · exact absurd hlate (by simp only; omega)
      · exact hlate
    · exact fun h => .inr (.inr h)
  by_cases he : expired cfg now ⟨2, if g then 0 else 1, if addinfo then ci.ipaddr else a.ip, a.ip, a.user,
      unwords (loginFactors addinfo ci a), dec (if addinfo then ci.itime else n),
      (loginTicket addinfo ci a.krbpath).1.getD [], m⟩
  · simp only [Int.lt_irrefl, if_false, Int.zero_ne_one, he, if_true] at hrun
    cases hrun
    rw [eaten, unlink_get, if_pos rfl]
    exact iff_of_true rfl (hexp.1 he)
  · simp only [Int.lt_irrefl, if_false, Int.zero_ne_one, he] at hrun
    cases hrun
    rw [hf]
    exact iff_of_false (by simp) fun h => he (hexp.2 h)

theorem deletesRight_of_lt {t : Nat} (h : t < 2 ^ 31) : DeletesRight t := by
  intro text cfg now s s' path g m r hl hf hout hidle hrun hr
  rw [eatCookie_login (by omega) hl hf hout hidle hrun hr, printed_eq.2 h]

theorem annRecord_written : Written "10.0.0.1".toList "10.0.0.1".toList "ann".toList ["umich".toList] none := by
  have hw : IsWord "umich".toList := acavParse_words "umich".toList _ List.mem_cons_self
  exact ⟨by decide, by decide, by decide, fun w h => List.mem_singleton.1 h ▸ hw, by rintro k ⟨⟩⟩

/-- Ann logs in at `t`. -/
theorem annRecord_loginAt (t : Nat) : LoginAt t (annRecord ["umich".toList] t) :=
  ⟨⟨false, t, false, .zero, ⟨annCookie, "10.0.0.1".toList, "ann".toList, "umich".toList, [], none⟩, false, rfl,
    annRecord_written, rfl⟩⟩

/-- A sweep at the very second of a login. -/
theorem lt_of_deletesRight {t : Nat} (ht : t < 10 ^ 11) (h : DeletesRight t) : t < 2 ^ 31 := by
  by_contra hge
  have hne : printed t ≠ t := fun he => hge (printed_eq.1 he)
  have hle := printed_le t
  have hl := annRecord_loginAt t
  obtain ⟨cfg, hcfg⟩ : ∃ cfg : Config, cfg = { Config.default with hardTimeout := 0 } := ⟨_, rfl⟩
  obtain ⟨s, hs⟩ : ∃ s : Store, s.get annCookie = some ⟨annRecord ["umich".toList] t, false, t⟩ :=
    ⟨.ofFiles [(annCookie, ⟨annRecord ["umich".toList] t, false, t⟩)], rfl⟩
  have hparse := parseCookie_recordText annRecord_written (by decide) (Nat.lt_trans (dec_length_lt ht) (by decide)) false t
  rw [if_pos ⟨by decide, dec_length_lt ht⟩] at hparse
  have hrun := run_eatCookie cfg t annCookie s
  have hcookie : s.cookie annCookie = some (0, ⟨2, 1, "10.0.0.1".toList, "10.0.0.1".toList, "ann".toList,
      unwords ["umich".toList], dec t, [], t⟩) := by
    simp only [Store.cookie, hs]
    exact hparse
  rw [hcookie, Option.map_some] at hrun
  obtain ⟨⟨r, s'⟩, hres⟩ : ∃ x, Prog.run exec (eatCookie cfg t annCookie) s = some x := ⟨_, hrun⟩
  have hr : r ≠ .failed := by
    rintro rfl
    rw [hres, Option.some_inj] at hrun
    simp only [Int.lt_irrefl, if_false, Int.zero_ne_one] at hrun
    split at hrun <;> cases hrun
  have hidle : (t : Int) - t ≤ cfg.idleCache := by
    rw [hcfg, Int.sub_self]
    decide
  have hcode := eatCookie_login ht hl hs (by rintro ⟨⟩) hidle hres hr
  have hright := h _ cfg t s s' annCookie false t r hl hs (by rintro ⟨⟩) hidle hres hr
  have hhard : cfg.hardTimeout = 0 := by rw [hcfg]
  rw [hcode, hhard] at hright
  omega

/-! ## The time of a line -/

theorem decInt_word (p : Int) : IsWord (decInt p) := by
  have hdig : ∀ n, ∀ c ∈ dec n, isBlank c = false := by
    intro n c hc
    have hd := dec_isDigit n c hc
    have hne : ∀ d : Char, d.isDigit = false → c ≠ d := by
      rintro d hf rfl
      rw [hd] at hf
      cases hf
    simp [isBlank, hne ' ' rfl, hne '\t' rfl, hne '\n' rfl]
  cases p with
  | ofNat n => exact ⟨dec_ne_nil n, hdig n⟩
  | negSucc n =>
    refine ⟨by simp [decInt], fun c hc => ?_⟩
    rcases List.mem_cons.1 hc with rfl | hc
    · rfl
    · exact hdig _ c hc

theorem unwords_three (u v w : Str) : unwords [u, v, w] = u ++ ' ' :: v ++ ' ' :: w := by
  simp only [unwords, List.append_assoc, List.cons_append]

theorem reportLine_eq (name : Str) (t state : Nat) :
    reportLine name t state = unwords [name, decInt (printed t), decInt (printed state)] ++ "\r\n".toList := by
  rw [unwords_three, reportLine]

theorem lineLeft_word {w : Str} (hw : IsWord w) (s : Str) : lineLeft (w ++ ' ' :: s) = w := by
  obtain ⟨c, v, rfl⟩ := List.exists_cons_of_ne_nil hw.1
  have hc := hw.2 c List.mem_cons_self
  have hall : ∀ d ∈ c :: v, (!isBlank d) = true := fun d hd => by rw [hw.2 d hd]; rfl
  rw [lineLeft, List.cons_append, List.takeWhile_cons_of_neg (by simp [hc]), List.dropWhile_cons_of_neg (by simp [hc]),
    ← List.cons_append, List.takeWhile_append_of_pos hall, List.takeWhile_cons_of_neg (by simp [isBlank]), List.nil_append,
    List.append_nil]

theorem timeCookie_moves {env : Env} {path timestamp state : Str} {s s' : Store} {f : File} {t : Int}
    (hf : s.get path = some f)
    (hlogout : timeLogout env 0 path state f = pure 0) (htime : atoi timestamp = t)
    (hrun : Prog.run exec (timeCookie env 0 path timestamp state) s = some ((), s')) :
    (∃ f', s'.get path = some f' ∧ f.mtime < f'.mtime) ↔ f.mtime < t := by
  by_cases hlt : t > f.mtime
  · have hs' : s' = (exec (.utime path t.toNat) s).2 := by
      simpa [timeCookie, hf, timeUtime, htime, hlt, hlogout] using hrun.symm
    refine iff_of_true ⟨{ f with mtime := t.toNat }, ?_, by simp only; omega⟩ hlt
    rw [hs']
    simp only [exec, hf]
    rw [Store.put_get]
  · have hs' : s' = s := by simpa [timeCookie, hf, timeUtime, htime, hlt, hlogout] using hrun.symm
    refine iff_of_false ?_ hlt
    rintro ⟨f', hf', hlt'⟩
    rw [hs', hf, Option.some_inj] at hf'
    exact absurd hlt' (hf' ▸ Nat.lt_irrefl _)

/-- What `f_time` does with a line of `monster`. -/
theorem timeLines_report {cfg : Config} {env : Env} {name line path : Str} {t state : Nat} {s s' : Store} {f : File}
    (hn : hasPrefix "cosign=".toList name) (hw : IsWord name)
    (hpath : mkcookiepath none cfg.hashlen name maxPathLen = some path)
    (hline : reportLine name t state = line ++ "\r\n".toList) (hf : s.get path = some f)
    (hlive : state = 1 ∨ f.isgid = false) (hrun : Prog.run exec (timeLines cfg env 0 [line]) s = some ((), s')) :
    (∃ f', s'.get path = some f' ∧ f.mtime < f'.mtime) ↔ (f.mtime : Int) < printed t := by
  have hwords : line = unwords [name, decInt (printed t), decInt (printed state)] := by
    rw [reportLine_eq] at hline
    exact (List.append_cancel_right hline).symm
  have hparse : acavParse line = [name, decInt (printed t), decInt (printed state)] := by
    rw [hwords]
    refine acavParse_unwords (List.forall_mem_cons.2 ⟨hw, List.forall_mem_cons.2 ⟨decInt_word _, ?_⟩⟩)
    exact List.forall_mem_cons.2 ⟨decInt_word _, by simp⟩
  have hdot : lineLeft line ≠ ".".toList := by
    rw [hwords, unwords, lineLeft_word hw]
    rintro rfl
    revert hn
    decide
  have hnamed : timeNamed cfg line = some (path, decInt (printed t), decInt (printed state)) := by
    simp only [timeNamed, hparse, if_pos hn, hpath, Option.map_some]
  have hlogout : timeLogout env 0 path (decInt (printed state)) f = pure 0 := by
    rw [timeLogout, if_neg]
    rintro ⟨h0, hg⟩
    rcases hlive with rfl | hlive
    · rw [atoi_decInt (printed_range 1), printed_eq.2 (by omega)] at h0
      cases h0
    · rw [hlive] at hg
      cases hg
  rw [timeLines_cons cfg env 0 hdot, hnamed] at hrun
  refine timeCookie_moves hf hlogout (atoi_decInt (printed_range t)) ?_
  simp only [timeLines, Prog.run_bind, Prog.run_pure] at hrun
  obtain ⟨⟨u, v⟩, hcookie, hv⟩ := Option.bind_eq_some_iff.1 hrun
  cases hv
  exact hcookie

theorem movesRight_of_lt {t : Nat} (h : t < 2 ^ 31) : MovesRight t := by
  intro cfg env name line path state s s' f hn hw hpath hline hf hlive hrun
  rw [timeLines_report hn hw hpath hline hf hlive hrun, printed_eq.2 h, Int.ofNat_lt]

/-- The right decisions from the times as they were. -/
theorem epoch_iff {t : Nat} (h : t < 10 ^ 11) : DeletesRight t ∧ MovesRight t ↔ t < 2 ^ 31 :=
  ⟨fun hr => lt_of_deletesRight h hr.1, fun ht => ⟨deletesRight_of_lt ht, movesRight_of_lt ht⟩⟩

theorem epoch_now : DeletesRight 1000000000 ∧ MovesRight 1000000000 ↔ 1000000000 < 2 ^ 31 := epoch_iff (by decide)

/-- The first second of 2^31. -/
theorem epoch_ends : ¬ ∀ t < 10 ^ 11, DeletesRight t ∧ MovesRight t := by
  intro h
  have := lt_of_deletesRight (t := 2147483648) (by decide) (h 2147483648 (by decide)).1
  omega

end Cosign
