import Cosign.Filter.Replies
/-!
# What a call does

One call of `cosign_cookie_valid` answers from a young record, or from what a
server says in that very call. It writes at most one record, and only when it
ends well.
-/

namespace Cosign.Filter

open Lib

/-- The file of a cookie. -/
def pathOf (cfg : HostConfig) (cookie : Str) : Option Str := mkcookiepath (some cfg.filterdb) cfg.hashlen cookie maxPathLen

/-- The records a call is about: the cookie's, and that of a name it is given. -/
def About (cfg : HostConfig) (cookie : Str) (new : List Answer) (path : Str) : Prop :=
  pathOf cfg cookie = some path ∨
    ∃ a ∈ new, ∃ name, Accepts cfg cookie a ∧ Renames cookie a name ∧ pathOf cfg name = some path

/-- What is in the file, as the filter reads it. -/
def SFile.info (f : SFile) : Option (Int × Sinfo) := readScookie (.file f.text f.mtime)

/-- The record holds what the answer said. -/
def Holds (f : SFile) (a : Answer) : Prop := ∃ lsi, f.info = some (0, lsi) ∧ Says a lsi

/-- The same user at the same place. -/
def SameUser (si lsi : Sinfo) : Prop := si.ipaddr = lsi.ipaddr ∧ si.user = lsi.user ∧ si.realm = lsi.realm

/-- A server said so in this call. -/
structure Told (cfg : HostConfig) (cookie : Str) (new : List Answer) (si : Sinfo) (a : Answer) : Prop where
  mem : a ∈ new
  accepts : Accepts cfg cookie a
  said : Says a si
  factors : SaysFactors a si

/-- The call ended well and wrote nothing: from a young record, or from an
answer. -/
def FromRecord (cfg : HostConfig) (cookie ipaddr : Str) (tv : Nat) (new : List Answer) (w : World) (v : Valid) : Prop :=
  ∃ path f lsi, About cfg cookie new path ∧ w.files path = some f ∧ f.info = some (0, lsi) ∧ tv ≤ f.mtime + idleTime ∧
    SameUser v.si lsi ∧ (cfg.checkip = .always → ipaddr = lsi.ipaddr) ∧
    (supportsFactors lsi.protocol → ∀ f ∈ cfg.reqfv, f ∈ acavParse lsi.factor)

/-- What the answer is compared with of a record `f` that reads as `lsi`: a young
one may have its first factor left only. -/
def Left (tv : Nat) (f : SFile) (lsi lsi' : Sinfo) : Prop :=
  lsi' = lsi ∨ tv ≤ f.mtime + idleTime ∧ lsi' = { lsi with factor := lineLeft lsi.factor }

/-- The record stays as it is but for its time, or it is stored under the
cookie's last name. -/
inductive Written (cfg : HostConfig) (tv : Nat) (w w' : World) (v : Valid) (a : Answer) : (path : Str) → (f : SFile) → Prop
  | refreshed {path f lsi lsi'} : w.files path = some f → f.info = some (0, lsi) → Left tv f lsi lsi' →
      SameUser v.si lsi → (supportsFactors v.si.protocol → v.si.factor = lsi'.factor) →
      Written cfg tv w w' v a path { f with mtime := w'.clock }
  | stored {path m} : a.time ≤ m → m ≤ w'.clock →
      (∀ name, v.rekey = some (some name) → pathOf cfg name = some path) →
      Written cfg tv w w' v a path ⟨recordText v.si, m⟩

/-- What one call does, `tv` being the time it goes by. -/
structure ValidPost (cfg : HostConfig) (cookie ipaddr : Str) (tv : Nat) (w : World) (v : Valid) (w' : World)
    (new : List Answer) : Prop where
  clock : w.clock ≤ w'.clock
  heard : w'.heard = w.heard ++ new
  times : ∀ a ∈ new, w.clock ≤ a.time ∧ a.time ≤ w'.clock
  checkip : v.rc = .ok → cfg.checkip = .always → ipaddr = v.si.ipaddr
  effect : (w'.files = w.files ∧ (v.rc = .ok → FromRecord cfg cookie ipaddr tv new w v ∨ ∃ a, Told cfg cookie new v.si a)) ∨
    (v.rc = .ok ∧ v.si.Fits ∧ ∃ a path f, Told cfg cookie new v.si a ∧ About cfg cookie new path ∧
      w'.files = Function.update w.files path (some f) ∧ Written cfg tv w w' v a path f)

/-! ## One time through -/

section
variable {cfg : HostConfig} {cookie ipaddr : Str} {tv : Nat}

/-- Nothing is written before the last time through, and what was heard before
still counts. -/
theorem About.mono {new new' : List Answer} {path : Str} (h : About cfg cookie new path) (hsub : new ⊆ new') :
    About cfg cookie new' path := by
  rcases h with h | ⟨a, ha, h⟩
  · exact .inl h
  · exact .inr ⟨a, hsub ha, h⟩

theorem Told.mono {new new' : List Answer} {si : Sinfo} {a : Answer} (h : Told cfg cookie new si a) (hsub : new ⊆ new') :
    Told cfg cookie new' si a :=
  ⟨hsub h.mem, h.accepts, h.said, h.factors⟩

/-- The call's cookie has no other name than one it was given in this call. -/
def Named (cfg : HostConfig) (cookie : Str) (new : List Answer) (rekey : Rekey) : Prop :=
  ∀ name, rekey = some (some name) → ∃ a ∈ new, Accepts cfg cookie a ∧ Renames cookie a name

theorem Named.mono {new new' : List Answer} {rekey : Rekey} (h : Named cfg cookie new rekey) (hsub : new ⊆ new') :
    Named cfg cookie new' rekey := by
  intro name hname
  obtain ⟨a, ha, h⟩ := h name hname
  exact ⟨a, hsub ha, h⟩

theorem ValidPost.quiet {w w' : World} {v : Valid} {new : List Answer} (hq : Quiet w w' new) (hrc : v.rc ≠ .ok) :
    ValidPost cfg cookie ipaddr tv w v w' new :=
  ⟨hq.clock, hq.heard, hq.times, fun h => absurd h hrc, .inl ⟨hq.files, fun h => absurd h hrc⟩⟩

/-- The post-condition of a call that has heard `new` so far. -/
abbrev Ends (cfg : HostConfig) (cookie ipaddr : Str) (tv : Nat) (w : World) (v : Valid) (w' : World) : Prop :=
  ∃ new, ValidPost cfg cookie ipaddr tv w v w' new

theorem storePath_about {new : List Answer} {path p : Str} {rekey : Rekey} (hpath : About cfg cookie new path)
    (hnamed : Named cfg cookie new rekey) (h : storePath cfg path rekey = some p) :
    About cfg cookie new p ∧ ∀ name, rekey = some (some name) → pathOf cfg name = some p := by
  unfold storePath at h
  split at h
  · rename_i name
    obtain ⟨a, ha, hacc, hren⟩ := hnamed name rfl
    exact ⟨.inr ⟨a, ha, name, hacc, hren, h⟩, fun n hn => by cases hn; exact h⟩
  · rename_i hrekey
    cases h
    exact ⟨hpath, fun n hn => absurd hn (hrekey n)⟩

/-- From `storecookie` on. -/
theorem storeCookie_spec {w w₁ : World} {new : List Answer} {path : Str} {newfile : Bool} {v : Valid} {a : Answer}
    {again : Str → FProg Valid} (hq : Quiet w w₁ new) (hpath : About cfg cookie new path)
    (hnamed : Named cfg cookie new v.rekey) (ha : Told cfg cookie new v.si a) (hfits : v.si.Fits)
    (hip : cfg.checkip = .always → ipaddr = v.si.ipaddr)
    (hagain : ∀ p w₂, Quiet w w₂ new → About cfg cookie new p → fwp (again p) (Ends cfg cookie ipaddr tv w) w₂) :
    fwp (storeCookie cfg path newfile v again) (Ends cfg cookie ipaddr tv w) w₁ := by
  unfold storeCookie
  cases hp : storePath cfg path v.rekey with
  | none => exact ⟨new, ValidPost.quiet hq (by simp)⟩
  | some p =>
    obtain ⟨habout, hlast⟩ := storePath_about hpath hnamed hp
    refine fwp_call fun ok w₂ hmk => ?_
    have hq₂ : Quiet w w₂ new := by simpa using hq.trans (World.Later.quiet hmk)
    have hfailed : ∀ w₃, w₂.Later w₃ → Ends cfg cookie ipaddr tv w { v with rc := .error } w₃ := fun w₃ hl =>
      ⟨new, ValidPost.quiet (by simpa using hq₂.trans hl.quiet) (by simp)⟩
    have hdone : ∀ w₃, w₂.Writes w₃ p (recordText v.si) → Ends cfg cookie ipaddr tv w { v with rc := .ok } w₃ := by
      rintro w₃ ⟨m, hlo, hhi, hfiles, -, hheard⟩
      have htime := (hq₂.times a ha.mem).2
      refine ⟨new, Nat.le_trans hq₂.clock (Nat.le_trans hlo hhi), hheard.trans hq₂.heard, fun b hb => ?_, fun _ => hip,
        .inr ⟨rfl, hfits, a, p, _, ha, habout, by rw [hfiles, hq₂.files],
          .stored (Nat.le_trans htime hlo) hhi hlast⟩⟩
      obtain ⟨h₁, h₂⟩ := hq₂.times b hb
      exact ⟨h₁, Nat.le_trans h₂ (Nat.le_trans hlo hhi)⟩
    cases ok with
    | false => exact ⟨new, ValidPost.quiet hq₂ (by simp)⟩
    | true =>
      cases newfile with
      | false =>
        refine fwp_call fun ok w₃ hren => ?_
        cases ok with
        | false => exact hfailed w₃ hren
        | true => exact hdone w₃ hren
      | true =>
        refine fwp_call fun ok w₃ hlink => ?_
        cases ok with
        | false => exact hagain p w₃ (by simpa using hq₂.trans (World.Later.quiet hlink)) habout
        | true => exact hdone w₃ hlink.2

/-- The ticket of the record goes with the answer. -/
theorem Told.krb5tkt {new : List Answer} {si : Sinfo} {a : Answer} (h : Told cfg cookie new si a) (k : Str) :
    Told cfg cookie new { si with krb5tkt := k } a :=
  ⟨h.mem, h.accepts, h.said, h.factors⟩

/-- The user is not touched by the cut. -/
theorem SameUser.left {f : SFile} {si lsi lsi' : Sinfo} (h : SameUser si lsi') (hleft : Left tv f lsi lsi') :
    SameUser si lsi := by
  rcases hleft with rfl | ⟨-, rfl⟩
  · exact h
  · exact h

theorem recordLeft_left {f : SFile} {lsi : Sinfo} (h : tv ≤ f.mtime + idleTime) :
    Left tv f lsi (recordLeft cfg ipaddr lsi) := by
  unfold recordLeft
  split
  · exact .inl rfl
  split
  · exact .inr ⟨h, rfl⟩
  · exact .inl rfl

theorem recordLeft_krb5tkt (cfg : HostConfig) (ipaddr : Str) (lsi : Sinfo) :
    (recordLeft cfg ipaddr lsi).krb5tkt = lsi.krb5tkt := by
  unfold recordLeft
  split
  · rfl
  split <;> rfl

/-- From `netcheck` on. -/
theorem netcheck_spec {n : Nat} {w w₁ : World} {new : List Answer} {path : Str} {newfile : Bool} {lsi si : Sinfo}
    {rekey : Rekey} {cl : List Conn} {again : Str → Valid → FProg Valid} (hq : Quiet w w₁ new)
    (hpath : About cfg cookie new path) (hnamed : Named cfg cookie new rekey)
    (hfile : newfile = false → ∃ f lsi', w.files path = some f ∧ f.info = some (0, lsi') ∧ Left tv f lsi' lsi)
    (hkrb : OneLine lsi.krb5tkt ∧ lsi.krb5tkt.length < krb5tktSize)
    (hagain : ∀ p v w₂ new₂, Quiet w w₂ new₂ → About cfg cookie new₂ p → Named cfg cookie new₂ v.rekey →
      fwp (again p v) (Ends cfg cookie ipaddr tv w) w₂) :
    fwp (netcheck n cfg cookie ipaddr path newfile lsi rekey si cl again) (Ends cfg cookie ipaddr tv w) w₁ := by
  unfold netcheck
  rw [fwp, Prog.wp_bind]
  refine Prog.wp_mono ?_ (checkCookie_spec n cfg cookie rekey si newfile cl w₁)
  rintro ⟨rc, si', rekey', cl'⟩ w₂ ⟨new', hq', -, -, hbehind⟩
  have hq₂ := hq.trans hq'
  dsimp only
  split
  · rename_i hrc
    exact ⟨_, ValidPost.quiet hq₂ hrc⟩
  rename_i hrc
  obtain rfl : rc = .ok := Decidable.not_not.1 hrc
  obtain ⟨⟨a, ha, hacc, hsaid, hfactors, hname⟩, hfits⟩ := hbehind rfl
  have htold : Told cfg cookie (new ++ new') si' a := ⟨List.mem_append_right _ ha, hacc, hsaid, hfactors⟩
  have hpath' : About cfg cookie (new ++ new') path := hpath.mono (List.subset_append_left _ _)
  have hnamed' : Named cfg cookie (new ++ new') rekey' := by
    rcases hname with rfl | ⟨name, hren, rfl⟩
    · exact hnamed.mono (List.subset_append_left _ _)
    · intro n hn
      cases hn
      exact ⟨a, List.mem_append_right _ ha, hacc, hren⟩
  split
  · exact ⟨_, ValidPost.quiet hq₂ (by simp)⟩
  rename_i hip
  have hip' : cfg.checkip = .always → ipaddr = si'.ipaddr := fun h => Decidable.not_not.1 fun hne => hip ⟨h, hne⟩
  cases newfile with
  | true =>
    rw [if_neg (by decide)]
    split
    · exact ⟨_, ValidPost.quiet hq₂ (by simp)⟩
    · exact storeCookie_spec hq₂ hpath' hnamed' htold hfits hip' fun p w₃ hq₃ habout => hagain p _ w₃ _ hq₃ habout hnamed'
  | false =>
    obtain ⟨f, lsi', hf, hinfo, hleft⟩ := hfile rfl
    rw [if_pos (show (!false) = true from rfl)]
    have hfits' : Sinfo.Fits { si' with krb5tkt := if cfg.krbtkt then lsi.krb5tkt else si'.krb5tkt } := by
      refine ⟨hfits.protocol, hfits.ipaddr, hfits.user, hfits.realm, hfits.factor, ?_⟩
      dsimp only
      split
      · exact hkrb
      · exact hfits.krb5tkt
    split
    · exact ⟨_, ValidPost.quiet hq₂ (by simp)⟩
    rename_i huser
    split
    · exact ⟨_, ValidPost.quiet hq₂ (by simp)⟩
    rename_i hrealm
    split
    · exact storeCookie_spec hq₂ hpath' hnamed' (htold.krb5tkt _) hfits' hip' fun p w₃ hq₃ habout =>
        hagain p _ w₃ _ hq₃ habout hnamed'
    -- the record is as the answer, and only its time changes
    rename_i hsame
    refine fwp_call fun _ w₃ hutime => ?_
    rcases hutime with hlater | ⟨g, hg, hclock, -, hheard, hfiles⟩
    · have hq₃ : Quiet w w₃ (new ++ new') := by simpa using hq₂.trans hlater.quiet
      exact ⟨_, hq₃.clock, hq₃.heard, hq₃.times, fun _ => hip', .inl ⟨hq₃.files, fun _ => .inr ⟨a, htold.krb5tkt _⟩⟩⟩
    · rw [hq₂.files, hf] at hg
      cases hg
      refine ⟨_, Nat.le_trans hq₂.clock hclock, hheard.trans hq₂.heard, fun b hb => ?_, fun _ => hip', .inr ⟨rfl, hfits', a,
        path, _, htold.krb5tkt _, hpath', by rw [hfiles, hq₂.files], .refreshed hf hinfo hleft ?_ ?_⟩⟩
      · exact ⟨(hq₂.times b hb).1, Nat.le_trans (hq₂.times b hb).2 hclock⟩
      · refine SameUser.left ?_ hleft
        exact ⟨Decidable.not_not.1 fun h => hsame (.inl h), Decidable.not_not.1 huser, Decidable.not_not.1 hrealm⟩
      · exact fun hs => Decidable.not_not.1 fun h => hsame (.inr ⟨hs, h⟩)

/-! ## The whole call -/

/-- What a young record is good for. -/
theorem cached_some {si si₁ lsi si₂ : Sinfo} (h : cached cfg ipaddr si lsi = (si₁, some si₂)) :
    (cfg.checkip = .always → ipaddr = lsi.ipaddr) ∧ SameUser si₂ lsi ∧
      (supportsFactors lsi.protocol → ∀ f ∈ cfg.reqfv, f ∈ acavParse lsi.factor) := by
  unfold cached at h
  split at h
  · cases h
  rename_i hip
  dsimp only at h
  split at h
  · cases h
  rename_i hreq
  cases h
  refine ⟨fun hc => Decidable.not_not.1 fun hne => hip ⟨hc, hne⟩, ⟨rfl, rfl, rfl⟩, fun hs f hf => ?_⟩
  have hall : cfg.reqfv.all (· ∈ acavParse lsi.factor) := Decidable.not_not.1 fun hno =>
    hreq ⟨List.ne_nil_of_mem hf, hs, hno⟩
  exact of_decide_eq_true (List.all_eq_true.1 hall f hf)

/-- What the read of a record can be. -/
theorem read_cases {w w' : World} {path : Str} {file : Opened} {rc : Int} {lsi : Sinfo}
    (h : filterStep (.read path) w file w') (hread : readScookie file = some (rc, lsi)) :
    rc < 0 ∨ rc = 1 ∨ ∃ f, w.files path = some f ∧ f.info = some (rc, lsi) ∧ lsi.itime = f.mtime := by
  rcases h.2 with rfl | rfl | ⟨f, hf, rfl⟩
  · cases hread
    exact .inr (.inl rfl)
  · cases hread
    exact .inl (by decide)
  · exact .inr (.inr ⟨f, hf, hread, readScookie_itime hread⟩)

theorem retry_spec {n : Nat} {w w₁ : World} {new : List Answer} {path : Str} {v : Valid} (hq : Quiet w w₁ new)
    (hpath : About cfg cookie new path) (hnamed : Named cfg cookie new v.rekey) :
    fwp (retry cfg cookie ipaddr tv n path v) (Ends cfg cookie ipaddr tv w) w₁ := by
  induction n generalizing w₁ new path v with
  | zero => trivial
  | succ n ih =>
    rw [retry]
    refine fwp_call fun file w₂ hread => ?_
    have hq₂ : Quiet w w₂ new := by simpa using hq.trans (World.Later.quiet hread.1)
    cases hfile : readScookie file with
    | none => trivial
    | some r =>
      obtain ⟨newfile, lsi⟩ := r
      have hkrb := readScookie_krb5tkt hfile
      have hcases := read_cases hread hfile
      change fwp (if newfile < 0 then _ else _) _ _
      split
      · exact ⟨_, ValidPost.quiet hq₂ (by simp)⟩
      rename_i hneg
      have hagain : ∀ p v w₂ new₂, Quiet w w₂ new₂ → About cfg cookie new₂ p → Named cfg cookie new₂ v.rekey →
          fwp (retry cfg cookie ipaddr tv n p v) (Ends cfg cookie ipaddr tv w) w₂ :=
        fun p v w₂ new₂ hq hp hn => ih hq hp hn
      have hrecord : newfile = 0 → ∃ f, w.files path = some f ∧ f.info = some (0, lsi) ∧ lsi.itime = f.mtime := by
        rintro rfl
        rcases hcases with h | h | ⟨f, hf, h⟩
        · exact absurd h hneg
        · cases h
        · exact ⟨f, by rw [← hq.files, hf], h⟩
      split
      · rename_i hyoung
        obtain ⟨rfl, hyoung⟩ := hyoung
        obtain ⟨f, hf, hinfo, htime⟩ := hrecord rfl
        have hage : tv ≤ f.mtime + idleTime := by
          simp only [fresh, htime, decide_eq_true_eq, idleTime] at hyoung ⊢
          omega
        split
        · rename_i si₁ si₂ hcached
          obtain ⟨hip, hsame, hfactors⟩ := cached_some hcached
          exact ⟨new, hq₂.clock, hq₂.heard, hq₂.times, fun _ hc => (hip hc).trans hsame.1.symm, .inl ⟨hq₂.files, fun _ =>
            .inl ⟨path, f, lsi, hpath, hf, hinfo, hage, hsame, hip, hfactors⟩⟩⟩
        · refine netcheck_spec hq₂ hpath hnamed (fun _ => ⟨f, lsi, hf, hinfo, recordLeft_left hage⟩) ?_ hagain
          rwa [recordLeft_krb5tkt]
      · refine netcheck_spec hq₂ hpath hnamed (fun h => ?_) hkrb hagain
        obtain rfl : newfile = 0 := by simpa using h
        obtain ⟨f, hf, hinfo, -⟩ := hrecord rfl
        exact ⟨f, lsi, hf, hinfo, .inl rfl⟩

end

/-- One call that may ask for a new name. -/
theorem cookieValid_spec (n : Nat) (cfg : HostConfig) (cookie : Str) (wants : Bool) (ipaddr : Str) (cl : List Conn)
    (w : World) :
    fwp (cookieValid n cfg cookie (if wants then some none else none) ipaddr cl)
      (fun v w' => ∃ tv new, w.clock ≤ tv ∧ ValidPost cfg cookie ipaddr tv w v w' new) w := by
  unfold cookieValid
  refine fwp_call fun ok w₁ haccess => ?_
  have hq₁ := World.Later.quiet haccess
  have hearly : ∀ w' v, Quiet w w' [] → v.rc = .error →
      ∃ tv new, w.clock ≤ tv ∧ ValidPost cfg cookie ipaddr tv w v w' new := fun w' v hq hv =>
    ⟨w.clock, [], Nat.le_refl _, ValidPost.quiet hq (by rw [hv]; decide)⟩
  cases ok with
  | false => exact hearly w₁ _ hq₁ rfl
  | true =>
    rw [if_neg (by decide)]
    split
    · exact hearly w₁ _ hq₁ rfl
    rename_i path hpath
    refine fwp_call fun t w₂ htime => ?_
    have hq₂ : Quiet w w₂ [] := by simpa using hq₁.trans htime.1.quiet
    cases t with
    | none => exact hearly w₂ _ hq₂ rfl
    | some tv =>
      have htv := htime.2 tv rfl
      refine Prog.wp_mono (fun v w' ⟨new, h⟩ => ⟨tv, new, by rw [htv]; exact hq₂.clock, h⟩)
        (retry_spec hq₂ (.inl hpath) fun name hname => ?_)
      cases wants <;> cases hname

end Cosign.Filter
